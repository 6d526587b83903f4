import XBlast.Foundation.ByteImage
import XBlast.Foundation.CString

/-!
# Files on an ISO 9660 disc

`iso9660.c` looks for a file by its path and copies it to memory. A disc is an image of bytes in
sectors of 2048. A directory is a sequence of records; each holds its own length, the extent and the
size of a file or of another directory, some flags and a name. `read_dir` walks through the records
and compares the path of each with the one that is searched. It goes down into a directory whose
path the searched path starts with, and returns what it finds there without looking any further.

`Records` is the layout of a directory by the standard: no record reaches into the next sector, and
a zero stands behind the last one of a sector. On such a directory the loop over the bytes is a
search in the list of records (`scan_eq`).
-/

set_option autoImplicit false
set_option relaxedAutoImplicit false

namespace XBlast.Cdrom

open Foundation

/-! ### Directory records -/

/-- The fixed part of `iso_directory_record`. -/
abbrev DirRecord := Packed 33

variable (record : DirRecord)

def recordExtent : UInt32 := littleEndian32 record.image 2

def recordSize : UInt32 := littleEndian32 record.image 10

def recordFlags : UInt8 := record.image 25

def recordNameLen : ℕ := (record.image 32).toNat

/-- The flag `IS_DIR`. -/
def isDir : Prop := recordFlags record &&& 2 ≠ 0

instance (record : DirRecord) : Decidable (isDir record) :=
  inferInstanceAs (Decidable (_ ≠ _))

variable (buffer : Bytes)

def recordAt (offset : ℕ) : DirRecord := readPacked 33 buffer offset

def nameAt (offset : ℕ) : List UInt8 :=
  bytesAt buffer (offset + 33) (recordNameLen (recordAt buffer offset))

/-- Letters become small, a version `;1` is left out together with a period in front of it, and any
other semicolon becomes a period. -/
def iso9660NameTranslate : List UInt8 → List UInt8
  | [] => []
  | letter :: rest =>
    if letter = 0 then []
    else if tolower letter = 0x2E ∧ rest = [0x3B, 0x31] then []
    else if tolower letter = 0x3B ∧ rest = [0x31] then []
    else (if tolower letter = 0x3B then 0x2E else tolower letter) :: iso9660NameTranslate rest

/-! ### The search -/

/-- The names `0` and `1` stand for the directory itself and the one above it. -/
def named (offset : ℕ) : Prop :=
  buffer (offset + 33) ≠ 0 ∧ buffer (offset + 33) ≠ 1

instance (buffer : Bytes) (offset : ℕ) : Decidable (named buffer offset) :=
  inferInstanceAs (Decidable (_ ∧ _))

/-- The path of a record in the directory `filename`. -/
def pathAt (filename : List UInt8) (offset : ℕ) : List UInt8 :=
  filename ++ 0x2F :: iso9660NameTranslate (nameAt buffer offset)

/-- The test whether a record is the one that is searched. `memcmp` looks at all letters of
`search`, and it meets the NUL of a shorter path. -/
def isSearched (search newfilename : List UInt8) : Prop :=
  newfilename.length ≤ search.length ∧
    (newfilename ++ [0]).take search.length = search

/-- The test whether the searched path goes on behind a directory. -/
def isAbove (search newfilename : List UInt8) : Prop :=
  newfilename.length < search.length ∧ search.take newfilename.length = newfilename ∧
    search.getD newfilename.length 0 = 0x2F

instance (search newfilename : List UInt8) : Decidable (isSearched search newfilename) :=
  inferInstanceAs (Decidable (_ ∧ _))

instance (search newfilename : List UInt8) : Decidable (isAbove search newfilename) :=
  inferInstanceAs (Decidable (_ ∧ _))

/-- The loop of `read_dir` over the records, with at most `fuel` turns. `descend` is the call for a
directory below, `loaded` the number of bytes that were read from the disc, and the array for
`newfilename` has 1024 bytes. A record that reaches behind the bytes that were read and a name that
does not fit have no result. The offset stays below `loaded`, so that it does not overflow. -/
def scan (descend : DirRecord → List UInt8 → Option (UInt32 × DirRecord)) (buffer : Bytes)
    (loaded readSize : ℕ) (search filename : List UInt8) (dirFound : DirRecord) :
    ℕ → ℕ → List UInt8 → Option (UInt32 × DirRecord)
  | 0, _, _ => none
  | fuel + 1, offset, newfilename =>
    if readSize ≤ offset then some (0, dirFound)
    else if loaded ≤ offset then none
    else if buffer offset = 0 then
      scan descend buffer loaded readSize search filename dirFound fuel
        ((offset + 2048) / 2048 * 2048) newfilename
    else if loaded < offset + 33 + max 1 (recordNameLen (recordAt buffer offset)) then none
    else
      let newfilename :=
        if named buffer offset then pathAt buffer filename offset else newfilename
      if 1024 ≤ newfilename.length then none
      else if isSearched search newfilename then
        some (recordExtent (recordAt buffer offset), recordAt buffer offset)
      else if isDir (recordAt buffer offset) ∧ 1 < recordNameLen (recordAt buffer offset) ∧
          isAbove search newfilename then
        descend (recordAt buffer offset) newfilename
      else scan descend buffer loaded readSize search filename dirFound fuel
        (offset + (buffer offset).toNat) newfilename

variable (disc : Bytes)

/-- The memory that consecutive sectors from `extent` on are read to. The number of a sector has 32
bits. -/
def sectors (extent : UInt32) : Bytes :=
  fun index ↦ disc (2048 * ((extent.toNat + index / 2048) % 2 ^ 32) + index % 2048)

/-- The extent of the record with the path `search`, or zero, and the record. `depth` bounds how far
the search goes down. -/
def readDir (disc : Bytes) (search : List UInt8) :
    ℕ → DirRecord → List UInt8 → DirRecord → Option (UInt32 × DirRecord)
  | 0, _, _, _ => none
  | depth + 1, dirRead, filename, dirFound =>
    scan (fun dir newfilename ↦ readDir disc search depth dir newfilename dirFound)
      (sectors disc (recordExtent dirRead)) ((recordSize dirRead).toNat / 2048 * 2048)
      (recordSize dirRead).toNat search filename dirFound ((recordSize dirRead).toNat + 1) 0 []

/-! ### Copying the file -/

/-- How many bytes `read_file` reports. When the limit is not above the size of the file, the limit
is taken for an address, and the number is the word that the memory holds there. -/
def reportedSize (memory : Bytes) (dirRead : DirRecord) (maxBytesToRead : UInt32) : UInt32 :=
  if recordSize dirRead < maxBytesToRead then recordSize dirRead
  else littleEndian32 memory maxBytesToRead.toNat

/-- The number of bytes that are copied: at least one sector, and a further one behind a file of
more than one sector that ends with a sector. -/
def roundedSize (readSize : UInt32) : UInt32 :=
  if readSize ≤ 2048 then 2048 else readSize + (2048 - readSize % 2048)

/-- The copy of the sector `i`. -/
def copyBlock (extent readSize : UInt32) (i : ℕ) : ℕ × List UInt8 :=
  let tmpbuff := bytesAt (sectors disc extent) (2048 * i) 2048
  (2048 * i, if readSize.toNat < 2048 * (i + 1)
    then tmpbuff.take (UInt32.ofNat (2048 * i) - readSize).toNat else tmpbuff)

/-- The value and the copies to the buffer, each with its place. -/
def readFile (disc memory : Bytes) (dirRead : DirRecord) (maxBytesToRead : UInt32) :
    UInt32 × List (ℕ × List UInt8) :=
  let bytesRead := reportedSize memory dirRead maxBytesToRead
  let readSize := roundedSize bytesRead
  (bytesRead, (List.range (readSize.toNat / 2048)).map
    (copyBlock disc (recordExtent dirRead) readSize))

/-- A value of 32 bits as an `int`. -/
def asInt (value : UInt32) : Int :=
  if value.toNat < 2 ^ 31 then value.toNat else value.toNat - 2 ^ 32

/-- The record of the root directory in the primary descriptor. -/
def rootDirectoryRecord : DirRecord := recordAt disc (2048 * 16 + 156)

def bootIso9660GetFile (disc memory : Bytes) (szcPath : List UInt8)
    (dwFileLengthMax : UInt32) : Option (Int × List (ℕ × List UInt8)) := do
  let (offset, dir) ← readDir disc szcPath (szcPath.length + 1) (rootDirectoryRecord disc) []
    fun _ ↦ 0
  if 0 < offset then
    let (bytesRead, copies) := readFile disc memory dir dwFileLengthMax
    some (asInt bytesRead, copies)
  else some (-1, [])

/-! ### The layout of a directory -/

/-- A record that keeps to the standard: it has a name, ends behind it and in the sector in which it
begins, and the names of the directory itself and the one above it are single bytes. -/
structure WellFormedRecord (buffer : Bytes) (offset : ℕ) : Prop where
  name_pos : 0 < recordNameLen (recordAt buffer offset)
  name_fits : 33 + recordNameLen (recordAt buffer offset) ≤ (buffer offset).toNat
  sector : offset % 2048 + (buffer offset).toNat ≤ 2048
  special : ¬ named buffer offset → recordNameLen (recordAt buffer offset) = 1

/-- The places of the records of a directory from an offset on. -/
inductive Records (buffer : Bytes) (size : ℕ) : ℕ → List ℕ → Prop
  | done {offset : ℕ} (hoffset : size ≤ offset) : Records buffer size offset []
  | skip {offset : ℕ} {records : List ℕ} (hoffset : offset < size) (hzero : buffer offset = 0)
      (hrest : Records buffer size ((offset + 2048) / 2048 * 2048) records) :
      Records buffer size offset records
  | record {offset : ℕ} {records : List ℕ} (hoffset : offset < size) (hlength : buffer offset ≠ 0)
      (hrecord : WellFormedRecord buffer offset)
      (hrest : Records buffer size (offset + (buffer offset).toNat) records) :
      Records buffer size offset (offset :: records)

theorem isSearched_iff {search newfilename : List UInt8} (hsearch : 0 ∉ search) :
    isSearched search newfilename ↔ newfilename = search := by
  constructor
  · rintro ⟨hlength, htake⟩
    obtain hshorter | hequal := lt_or_eq_of_le hlength
    · rw [List.take_of_length_le (by simpa using hshorter)] at htake
      exact absurd (htake ▸ List.mem_append_right _ (List.mem_singleton_self 0)) hsearch
    · rwa [← hequal, List.take_left] at htake
  · rintro rfl
    exact ⟨le_rfl, List.take_left⟩

section

variable {descend : DirRecord → List UInt8 → Option (UInt32 × DirRecord)} {buffer : Bytes}
  {size : ℕ} {search filename : List UInt8} {dirFound : DirRecord}

/-- The records at which the walk through a directory ends. -/
def stops (buffer : Bytes) (search filename : List UInt8) (offset : ℕ) : Prop :=
  named buffer offset ∧ (pathAt buffer filename offset = search ∨
    isDir (recordAt buffer offset) ∧ 1 < recordNameLen (recordAt buffer offset) ∧
      isAbove search (pathAt buffer filename offset))

instance (offset : ℕ) : Decidable (stops buffer search filename offset) :=
  inferInstanceAs (Decidable (_ ∧ _))

/-- What the walk results in. -/
def outcome (descend : DirRecord → List UInt8 → Option (UInt32 × DirRecord))
    (buffer : Bytes) (search filename : List UInt8) (dirFound : DirRecord) :
    Option ℕ → Option (UInt32 × DirRecord)
  | none => some (0, dirFound)
  | some offset =>
    if pathAt buffer filename offset = search then
      some (recordExtent (recordAt buffer offset), recordAt buffer offset)
    else descend (recordAt buffer offset) (pathAt buffer filename offset)

/-- The loop over the bytes of a directory is a search in the list of its records. The name that
is left from the record before is not the searched one, because the loop would have ended there. -/
theorem scan_eq (hsearch : 0 ∉ search) (hsize : 2048 ∣ size)
    (hroom : ∀ offset, (pathAt buffer filename offset).length < 1024) {offset : ℕ}
    {records : List ℕ} (hrecords : Records buffer size offset records) :
    ∀ {fuel : ℕ} {newfilename : List UInt8}, size - offset < fuel → newfilename ≠ search →
      newfilename.length < 1024 →
      scan descend buffer size size search filename dirFound fuel offset newfilename =
        outcome descend buffer search filename dirFound
          (records.find? fun offset ↦ decide (stops buffer search filename offset)) := by
  induction hrecords with
  | done hoffset =>
    intro fuel newfilename hfuel _ _
    obtain ⟨fuel, rfl⟩ := Nat.exists_eq_succ_of_ne_zero (by omega : fuel ≠ 0)
    rw [scan, if_pos hoffset, List.find?_nil, outcome]
  | skip hoffset hzero _ ih =>
    intro fuel newfilename hfuel hname hlength
    obtain ⟨fuel, rfl⟩ := Nat.exists_eq_succ_of_ne_zero (by omega : fuel ≠ 0)
    rw [scan, if_neg (by omega), if_neg (by omega), if_pos hzero]
    exact ih (by omega) hname hlength
  | @record offset records hoffset hlength hrecord _ ih =>
    intro fuel newfilename hfuel hname hlong
    obtain ⟨fuel, rfl⟩ := Nat.exists_eq_succ_of_ne_zero (by omega : fuel ≠ 0)
    have hinside : ¬ size < offset + 33 + max 1 (recordNameLen (recordAt buffer offset)) := by
      have := hrecord.name_pos
      have := hrecord.name_fits
      have := hrecord.sector
      omega
    have hpositive : 0 < (buffer offset).toNat := by
      have := hrecord.name_fits
      omega
    rw [scan, if_neg (by omega), if_neg (by omega), if_neg hlength, if_neg hinside]
    by_cases hnamed : named buffer offset
    · rw [if_pos hnamed, if_neg (not_le.mpr (hroom offset))]
      by_cases hfound : pathAt buffer filename offset = search
      · have hstops : stops buffer search filename offset := ⟨hnamed, .inl hfound⟩
        rw [if_pos ((isSearched_iff hsearch).mpr hfound),
          List.find?_cons_of_pos (by exact decide_eq_true hstops), outcome, if_pos hfound]
      · rw [if_neg (mt (isSearched_iff hsearch).mp hfound)]
        by_cases hbelow : isDir (recordAt buffer offset) ∧
            1 < recordNameLen (recordAt buffer offset) ∧
            isAbove search (pathAt buffer filename offset)
        · have hstops : stops buffer search filename offset := ⟨hnamed, .inr hbelow⟩
          rw [if_pos hbelow, List.find?_cons_of_pos (by exact decide_eq_true hstops), outcome,
            if_neg hfound]
        · have hpasses : ¬ stops buffer search filename offset :=
            fun hstops ↦ hstops.2.elim hfound hbelow
          rw [if_neg hbelow, List.find?_cons_of_neg (by simpa using hpasses)]
          exact ih (by omega) hfound (hroom offset)
    · have hpasses : ¬ stops buffer search filename offset := fun hstops ↦ hnamed hstops.1
      have hsingle := hrecord.special hnamed
      rw [if_neg hnamed, if_neg (not_le.mpr hlong), if_neg (mt (isSearched_iff hsearch).mp hname),
        if_neg (by omega), List.find?_cons_of_neg (by simpa using hpasses)]
      exact ih (by omega) hname hlong

end

end XBlast.Cdrom
