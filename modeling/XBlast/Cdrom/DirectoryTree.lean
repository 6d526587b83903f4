import XBlast.Cdrom.Iso9660

/-!
# The search through a directory tree

`Locates` says what a path names on a disc: a directory holds a record with the first name of the
path, and either the path ends there or the record is a directory in which the rest of the path
names something. The directories on the way keep to the standard, with different names in each.

`readDir_of_locates` compares the search with that. A record below directories with names of
several letters is found. A directory with a name of one letter is never entered, because the test
that leaves out the directory itself and the one above it asks for the length of the name; what
lies below is not found.
-/

set_option autoImplicit false
set_option relaxedAutoImplicit false

namespace XBlast.Cdrom

open Foundation List

/-- The names of a path, each behind a separator. -/
def pathText (names : List (List UInt8)) : List UInt8 := names.flatMap fun name ↦ 0x2F :: name

variable (name : List UInt8) (names : List (List UInt8))

theorem pathText_cons : pathText (name :: names) = 0x2F :: name ++ pathText names :=
  flatMap_cons

/-! ### What a path names -/

/-- A directory of whole sectors on a disc, with the places of its records. Different records have
different names, and no name holds a separator. -/
structure Directory (disc : Bytes) (directory : DirRecord) (records : List ℕ) : Prop where
  whole : 2048 ∣ (recordSize directory).toNat
  layout : Records (sectors disc (recordExtent directory)) (recordSize directory).toNat 0 records
  distinct : ∀ offset ∈ records, ∀ other ∈ records,
    named (sectors disc (recordExtent directory)) offset →
    named (sectors disc (recordExtent directory)) other →
    iso9660NameTranslate (nameAt (sectors disc (recordExtent directory)) offset) =
      iso9660NameTranslate (nameAt (sectors disc (recordExtent directory)) other) → offset = other
  plain : ∀ offset ∈ records, named (sectors disc (recordExtent directory)) offset →
    0x2F ∉ iso9660NameTranslate (nameAt (sectors disc (recordExtent directory)) offset)

/-- The names of a path lead from a directory through the directories `passed` to a record. -/
inductive Locates (disc : Bytes) :
    DirRecord → List (List UInt8) → List DirRecord → DirRecord → Prop
  | here {directory : DirRecord} {records : List ℕ} {offset : ℕ}
      (hdirectory : Directory disc directory records) (hoffset : offset ∈ records)
      (hnamed : named (sectors disc (recordExtent directory)) offset) :
      Locates disc directory
        [iso9660NameTranslate (nameAt (sectors disc (recordExtent directory)) offset)] []
        (recordAt (sectors disc (recordExtent directory)) offset)
  | through {directory target : DirRecord} {records : List ℕ} {offset : ℕ}
      {names : List (List UInt8)} {passed : List DirRecord}
      (hdirectory : Directory disc directory records) (hoffset : offset ∈ records)
      (hnamed : named (sectors disc (recordExtent directory)) offset)
      (hisDir : isDir (recordAt (sectors disc (recordExtent directory)) offset))
      (hrest : Locates disc (recordAt (sectors disc (recordExtent directory)) offset) names passed
        target) :
      Locates disc directory
        (iso9660NameTranslate (nameAt (sectors disc (recordExtent directory)) offset) :: names)
        (recordAt (sectors disc (recordExtent directory)) offset :: passed) target

/-! ### Names -/

theorem iso9660NameTranslate_ne_zero : 0 ∉ iso9660NameTranslate name := by
  induction name with
  | nil => exact not_mem_nil
  | cons letter rest ih =>
    rw [iso9660NameTranslate]
    split_ifs with hzero hperiod hversion hsemicolon
    · exact not_mem_nil
    · exact not_mem_nil
    · exact not_mem_nil
    · exact not_mem_cons_of_ne_of_not_mem (by decide) ih
    · exact not_mem_cons_of_ne_of_not_mem (tolower_ne_zero _ hzero).symm ih

theorem length_iso9660NameTranslate_le : (iso9660NameTranslate name).length ≤ name.length := by
  induction name with
  | nil => exact le_rfl
  | cons letter rest ih =>
    rw [iso9660NameTranslate]
    split_ifs <;> simp only [length_nil, length_cons] <;> omega

theorem length_pathAt_lt {buffer : Bytes} {filename : List UInt8}
    (hfilename : filename.length ≤ 255) (offset : ℕ) :
    (pathAt buffer filename offset).length < 1024 := by
  have htranslated := length_iso9660NameTranslate_le (nameAt buffer offset)
  have hname : (nameAt buffer offset).length < 256 := by
    rw [nameAt, bytesAt, length_map, length_range]
    exact UInt8.toNat_lt _
  rw [pathAt, length_append, length_cons]
  omega

/-- Two texts that start with a name and go on with a separator or end have the same name. -/
theorem takeWhile_name {name rest : List UInt8} (hname : 0x2F ∉ name)
    (hrest : rest.head? = none ∨ rest.head? = some 0x2F) :
    (name ++ rest).takeWhile (· ≠ 0x2F) = name := by
  rw [takeWhile_append_of_pos fun letter hletter ↦
    decide_eq_true (ne_of_mem_of_not_mem hletter hname)]
  cases rest with
  | nil => exact append_nil name
  | cons letter rest =>
    obtain rfl : letter = 0x2F := by simpa using hrest
    rw [takeWhile_cons_of_neg (by decide), append_nil]

theorem head_pathText : (pathText names).head? = none ∨ (pathText names).head? = some 0x2F := by
  cases names with
  | nil => exact .inl rfl
  | cons name names => exact .inr rfl

section

variable {buffer : Bytes} {filename name : List UInt8} {names : List (List UInt8)} {offset : ℕ}

/-- A record with the searched path has the first name of the path, and it is the last one. -/
theorem pathAt_eq_iff (hplain : 0x2F ∉ iso9660NameTranslate (nameAt buffer offset))
    (hname : 0x2F ∉ name) :
    pathAt buffer filename offset = filename ++ pathText (name :: names) ↔
      iso9660NameTranslate (nameAt buffer offset) = name ∧ names = [] := by
  rw [pathAt, pathText_cons, cons_append, append_cancel_left_eq, List.cons.injEq, and_iff_right rfl]
  constructor
  · intro hpath
    have hfirst := congrArg (List.takeWhile (· ≠ 0x2F)) hpath
    rw [takeWhile_name hname (head_pathText names)] at hfirst
    rw [← append_nil (iso9660NameTranslate _), takeWhile_name hplain (.inl rfl)] at hfirst
    rw [hfirst, ← append_nil name, append_assoc, append_cancel_left_eq] at hpath
    refine ⟨hfirst, ?_⟩
    cases names with
    | nil => rfl
    | cons next names => cases hpath
  · rintro ⟨rfl, rfl⟩
    exact (append_nil _).symm

/-- A directory above the searched path has the first name of the path, and there are more. -/
theorem isAbove_pathAt_iff (hplain : 0x2F ∉ iso9660NameTranslate (nameAt buffer offset))
    (hname : 0x2F ∉ name) :
    isAbove (filename ++ pathText (name :: names)) (pathAt buffer filename offset) ↔
      iso9660NameTranslate (nameAt buffer offset) = name ∧ names ≠ [] := by
  constructor
  · rintro ⟨hlength, htake, hsep⟩
    -- behind the path of the directory the searched path goes on with a separator
    have hsplit := take_append_drop (pathAt buffer filename offset).length
      (filename ++ pathText (name :: names))
    rw [htake, drop_eq_getElem_cons hlength] at hsplit
    rw [getD_eq_getElem?_getD, getElem?_eq_getElem hlength, Option.getD_some] at hsep
    rw [hsep, pathAt, pathText_cons, append_assoc, append_cancel_left_eq,
      cons_append, cons_append, List.cons.injEq, and_iff_right rfl] at hsplit
    have hfirst := congrArg (List.takeWhile (· ≠ 0x2F)) hsplit
    rw [takeWhile_name hplain (.inr rfl), takeWhile_name hname (head_pathText names)] at hfirst
    refine ⟨hfirst, ?_⟩
    rintro rfl
    rw [hfirst, append_cancel_left_eq] at hsplit
    cases hsplit
  · rintro ⟨rfl, hnames⟩
    obtain ⟨next, more, rfl⟩ := exists_cons_of_ne_nil hnames
    have hsearch : filename ++ pathText (iso9660NameTranslate (nameAt buffer offset) ::
        next :: more) = pathAt buffer filename offset ++ 0x2F :: (next ++ pathText more) := by
      rw [pathText_cons, pathText_cons, pathAt, append_assoc, cons_append]
      rfl
    rw [hsearch]
    refine ⟨?_, take_left, ?_⟩
    · rw [length_append, length_cons]
      omega
    · rw [getD_eq_getElem?_getD, getElem?_append_right le_rfl, Nat.sub_self]
      rfl

end

/-! ### The search -/

section

variable {disc : Bytes} {directory : DirRecord} {records : List ℕ} {search filename : List UInt8}
  {dirFound : DirRecord}

/-- The search in a directory of the disc goes through its records. -/
theorem readDir_eq (hdirectory : Directory disc directory records) (hnul : 0 ∉ search)
    (hsearch : search ≠ []) (hfilename : filename.length ≤ 255) (depth : ℕ) :
    readDir disc search (depth + 1) directory filename dirFound =
      outcome (fun dir newfilename ↦ readDir disc search depth dir newfilename dirFound)
        (sectors disc (recordExtent directory)) search filename dirFound
        (records.find? fun offset ↦
          decide (stops (sectors disc (recordExtent directory)) search filename offset)) := by
  rw [readDir, Nat.div_mul_cancel hdirectory.whole]
  exact scan_eq hnul hdirectory.whole (length_pathAt_lt hfilename) hdirectory.layout (by omega)
    hsearch.symm (by decide)

section

variable (hdirectory : Directory disc directory records) {names : List (List UInt8)} {offset : ℕ}
  (hoffset : offset ∈ records) (hnamed : named (sectors disc (recordExtent directory)) offset)

include hdirectory hoffset hnamed

/-- Only the record with the first name of the path can end the walk. -/
theorem eq_of_stops {other : ℕ} (hother : other ∈ records)
    (hstops : stops (sectors disc (recordExtent directory)) (filename ++ pathText
      (iso9660NameTranslate (nameAt (sectors disc (recordExtent directory)) offset) :: names))
      filename other) : other = offset := by
  obtain ⟨hotherNamed, hstops⟩ := hstops
  have hname := hdirectory.plain offset hoffset hnamed
  have hplain := hdirectory.plain other hother hotherNamed
  apply hdirectory.distinct other hother offset hoffset hotherNamed hnamed
  obtain hfound | ⟨-, -, habove⟩ := hstops
  · exact ((pathAt_eq_iff hplain hname).mp hfound).1
  · exact ((isAbove_pathAt_iff hplain hname).mp habove).1

/-- The walk ends at the record with the first name of the path, if it ends there at all. -/
theorem find_stops (hsearch : search = filename ++ pathText
      (iso9660NameTranslate (nameAt (sectors disc (recordExtent directory)) offset) :: names)) :
    (records.find? fun offset ↦
        decide (stops (sectors disc (recordExtent directory)) search filename offset)) =
      if stops (sectors disc (recordExtent directory)) search filename offset then some offset
      else none := by
  subst hsearch
  cases hfind : records.find? fun offset ↦ decide (stops _ _ filename offset) with
  | none =>
    have hpasses := find?_eq_none.mp hfind offset hoffset
    rw [if_neg (by simpa using hpasses)]
  | some found =>
    have hstops := of_decide_eq_true (by simpa using find?_some hfind)
    obtain rfl := eq_of_stops hdirectory hoffset hnamed (mem_of_find?_eq_some hfind) hstops
    rw [if_pos hstops]

end

end

/-- All directories on the way have names of more than one letter, so that they are entered. -/
def entered (passed : List DirRecord) : Bool := passed.all fun dir ↦ decide (1 < recordNameLen dir)

theorem entered_iff {passed : List DirRecord} :
    entered passed ↔ ∀ dir ∈ passed, 1 < recordNameLen dir := by
  rw [entered, all_eq_true]
  exact forall₂_congr fun _ _ ↦ decide_eq_true_iff

/-- A record is found if all directories on the way to it have names of more than one letter, and it
is not found otherwise. -/
theorem readDir_of_locates {disc : Bytes} {directory target dirFound : DirRecord}
    {names : List (List UInt8)} {passed : List DirRecord} {search : List UInt8} (hnul : 0 ∉ search)
    (hlength : search.length ≤ 255) (hlocates : Locates disc directory names passed target) :
    ∀ {filename : List UInt8} {depth : ℕ}, search = filename ++ pathText names →
      names.length ≤ depth →
      readDir disc search depth directory filename dirFound =
        if entered passed then some (recordExtent target, target) else some (0, dirFound) := by
  have hfits {filename name : List UInt8} {names : List (List UInt8)}
      (hsearch : search = filename ++ pathText (name :: names)) :
      search ≠ [] ∧ filename.length ≤ 255 := by
    rw [hsearch, length_append] at hlength
    rw [hsearch, pathText_cons]
    exact ⟨append_ne_nil_of_right_ne_nil _ (cons_ne_nil _ _), by omega⟩
  induction hlocates with
  | @here directory records offset hdirectory hoffset hnamed =>
    intro filename depth hsearch hdepth
    obtain ⟨depth, rfl⟩ := Nat.exists_eq_succ_of_ne_zero (ne_of_gt hdepth)
    have hplain := hdirectory.plain offset hoffset hnamed
    have hfound : pathAt (sectors disc (recordExtent directory)) filename offset = search :=
      hsearch ▸ (pathAt_eq_iff hplain hplain).mpr ⟨rfl, rfl⟩
    rw [readDir_eq hdirectory hnul (hfits hsearch).1 (hfits hsearch).2,
      find_stops hdirectory hoffset hnamed hsearch, if_pos ⟨hnamed, .inl hfound⟩, outcome,
      if_pos hfound, if_pos (show entered [] = true from rfl)]
  | @through directory target records offset names passed hdirectory hoffset hnamed hisDir hrest
      ih =>
    intro filename depth hsearch hdepth
    obtain ⟨depth, rfl⟩ := Nat.exists_eq_succ_of_ne_zero (by
      rw [length_cons] at hdepth
      omega : depth ≠ 0)
    have hplain := hdirectory.plain offset hoffset hnamed
    have hnames : names ≠ [] := by
      cases hrest <;> exact cons_ne_nil _ _
    have hnotFound : pathAt (sectors disc (recordExtent directory)) filename offset ≠ search :=
      fun hfound ↦ hnames ((pathAt_eq_iff hplain hplain).mp (hfound.trans hsearch)).2
    have habove : isAbove search
        (pathAt (sectors disc (recordExtent directory)) filename offset) :=
      hsearch ▸ (isAbove_pathAt_iff hplain hplain).mpr ⟨rfl, hnames⟩
    rw [readDir_eq hdirectory hnul (hfits hsearch).1 (hfits hsearch).2,
      find_stops hdirectory hoffset hnamed hsearch]
    by_cases hletters : 1 < recordNameLen (recordAt (sectors disc (recordExtent directory)) offset)
    · rw [if_pos ⟨hnamed, .inr ⟨hisDir, hletters, habove⟩⟩, outcome, if_neg hnotFound]
      have hbelow : search =
          pathAt (sectors disc (recordExtent directory)) filename offset ++ pathText names := by
        rw [hsearch, pathText_cons, pathAt, append_assoc]
      rw [ih hbelow (Nat.le_of_succ_le_succ hdepth)]
      have hentered : entered (recordAt (sectors disc (recordExtent directory)) offset :: passed) =
          entered passed := by
        rw [entered, all_cons, decide_eq_true hletters, Bool.true_and, entered]
      rw [hentered]
    · have hpasses : ¬ stops (sectors disc (recordExtent directory)) search filename offset := by
        rintro ⟨-, hfound | ⟨-, hlong, -⟩⟩
        · exact hnotFound hfound
        · exact hletters hlong
      rw [if_neg hpasses, outcome, if_neg]
      exact fun hentered ↦ hletters (entered_iff.mp hentered _ mem_cons_self)

end XBlast.Cdrom
