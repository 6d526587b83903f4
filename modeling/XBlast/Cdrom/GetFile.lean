import XBlast.Cdrom.DirectoryTree

/-!
# Reading a file with a limit

`BootIso9660GetFile` is called with the size of the caller's buffer. `read_file` copies whole
sectors, so that it writes behind the limit unless the limit leaves room for the last one, and for
one more behind a longer file that ends with a sector. If the limit is not above the size of the
file, it is not used at all: `*(unsigned long *)max_bytes_to_read` is the word of the memory at
this address.

`bootIso9660GetFile_honours_iff` says for which files and limits the answer, the bytes and the end
of the copy are right.
-/

set_option autoImplicit false
set_option relaxedAutoImplicit false

namespace XBlast.Cdrom

open Foundation List

/-! ### The copied sectors -/

/-- Whole sectors from the extent on. -/
def sectorCopies (disc : Bytes) (extent : UInt32) (count : ℕ) : List (ℕ × List UInt8) :=
  (List.range count).map fun i ↦ (2048 * i, bytesAt (sectors disc extent) (2048 * i) 2048)

/-- The bytes of the buffer that some copy reaches. -/
def Written (copies : List (ℕ × List UInt8)) (index : ℕ) : Prop :=
  ∃ copy ∈ copies, copy.1 ≤ index ∧ index < copy.1 + copy.2.length

theorem length_bytesAt (source : Bytes) (start length : ℕ) :
    (bytesAt source start length).length = length := by
  rw [bytesAt, length_map, length_range]

theorem written_sectorCopies_iff {disc : Bytes} {extent : UInt32} {count index : ℕ} :
    Written (sectorCopies disc extent count) index ↔ index < 2048 * count := by
  simp only [Written, sectorCopies, mem_map, mem_range, exists_exists_and_eq_and, length_bytesAt]
  constructor
  · rintro ⟨i, hi, -, hindex⟩
    omega
  · intro hindex
    exact ⟨index / 2048, by omega, by omega, by omega⟩

/-- The shorter copy in `read_file` is never made. -/
theorem readFile_eq (disc memory : Bytes) (dirRead : DirRecord) (maxBytesToRead : UInt32) :
    readFile disc memory dirRead maxBytesToRead =
      (reportedSize memory dirRead maxBytesToRead, sectorCopies disc (recordExtent dirRead)
        ((roundedSize (reportedSize memory dirRead maxBytesToRead)).toNat / 2048)) := by
  refine Prod.ext rfl (map_congr_left fun i hi ↦ ?_)
  rw [mem_range] at hi
  rw [copyBlock, if_neg (by omega)]

theorem sectorCopies_apart (disc : Bytes) (extent : UInt32) (count : ℕ) :
    (sectorCopies disc extent count).Pairwise FieldsApart := by
  refine pairwise_map.mpr (pairwise_lt_range.imp fun {i j} hij ↦ .inl ?_)
  rw [length_bytesAt]
  omega

/-- The buffer holds the bytes of the sectors, as far as they were copied. -/
theorem writeFields_sectorCopies {disc buffer : Bytes} {extent : UInt32} {count index : ℕ}
    (hindex : index < 2048 * count) :
    writeFields (sectorCopies disc extent count) buffer index = sectors disc extent index := by
  have hcopy : (2048 * (index / 2048), bytesAt (sectors disc extent) (2048 * (index / 2048)) 2048) ∈
      sectorCopies disc extent count :=
    mem_map.mpr ⟨index / 2048, mem_range.mpr (by omega), rfl⟩
  have hinside : index % 2048 < 2048 := Nat.mod_lt index (by omega)
  have hbyte : writeFields (sectorCopies disc extent count) buffer
      (2048 * (index / 2048) + index % 2048) = _ :=
    writeFields_inside (sectorCopies_apart disc extent count) hcopy (by rwa [length_bytesAt])
  rw [Nat.div_add_mod] at hbyte
  rw [hbyte, listImage, bytesAt, getD_eq_getElem?_getD, getElem?_map,
    getElem?_range hinside, Option.map_some, Option.getD_some, Nat.div_add_mod]

/-! ### Sizes -/

theorem roundedSize_toNat {size : UInt32} (hsize : size.toNat < 2 ^ 31) :
    (roundedSize size).toNat =
      if size.toNat ≤ 2048 then 2048 else size.toNat + (2048 - size.toNat % 2048) := by
  rw [roundedSize, apply_ite UInt32.toNat]
  have hle : size ≤ 2048 ↔ size.toNat ≤ 2048 := UInt32.le_iff_toNat_le
  simp only [hle]
  split_ifs with hsmall
  · rfl
  · have hrest : (size % 2048).toNat = size.toNat % 2048 := UInt32.toNat_mod size 2048
    have hrest' : size % 2048 ≤ 2048 := by
      rw [UInt32.le_iff_toNat_le, hrest]
      exact (Nat.mod_lt _ (by decide)).le
    rw [UInt32.toNat_add, UInt32.toNat_sub_of_le _ _ hrest', hrest]
    simp only [UInt32.reduceToNat]
    omega

theorem asInt_eq_iff {value : UInt32} {count : ℕ} :
    asInt value = count ↔ value.toNat = count ∧ count < 2 ^ 31 := by
  have hvalue := value.toNat_lt
  rw [asInt]
  split_ifs <;> omega

/-! ### The limit -/

theorem Locates.zero_not_mem {disc : Bytes} {directory target : DirRecord}
    {names : List (List UInt8)} {passed : List DirRecord}
    (hlocates : Locates disc directory names passed target) : 0 ∉ pathText names := by
  have hname (name : List UInt8) (rest : List (List UInt8)) (hrest : 0 ∉ pathText rest) :
      0 ∉ pathText (iso9660NameTranslate name :: rest) := by
    rw [pathText_cons, mem_append, mem_cons]
    rintro ((hsep | hletter) | hmem)
    · exact absurd hsep (by decide)
    · exact iso9660NameTranslate_ne_zero name hletter
    · exact hrest hmem
  induction hlocates with
  | here _ _ _ => exact hname _ [] not_mem_nil
  | through _ _ _ _ _ ih => exact hname _ _ ih

theorem length_le_length_pathText (names : List (List UInt8)) :
    names.length ≤ (pathText names).length := by
  induction names with
  | nil => exact le_rfl
  | cons name names ih =>
    rw [pathText_cons, length_append, length_cons, length_cons]
    omega

/-! ### A disc with one file -/

/-- A disc with the root directory in sector 20 and the five bytes of `/image.bin` in sector 21. -/
def imageDisc : Bytes :=
  writeFields
    [(2048 * 16 + 156, [34, 0, 20, 0, 0, 0, 0, 0, 0, 20, 0, 8, 0, 0, 0, 0, 8, 0, 0, 0, 0, 0, 0, 0,
      0, 2, 0, 0, 1, 0, 0, 1, 1, 0]),
     (2048 * 20, [44, 0, 21, 0, 0, 0, 0, 0, 0, 21, 5, 0, 0, 0, 0, 0, 0, 5, 0, 0, 0, 0, 0, 0, 0,
      0, 0, 0, 1, 0, 0, 1, 11] ++ ascii "IMAGE.BIN;1"),
     (2048 * 21, ascii "hello")] fun _ ↦ 0

def imageFile : DirRecord := recordAt imageDisc (2048 * 20)

theorem imageDisc_directory : Directory imageDisc (rootDirectoryRecord imageDisc) [0] where
  whole := by decide +kernel
  layout := by
    refine Records.record (by decide +kernel) (by decide +kernel) ?_ ?_
    · exact ⟨by decide +kernel, by decide +kernel, by decide +kernel, by decide +kernel⟩
    · refine Records.skip (by decide +kernel) (by decide +kernel) (Records.done ?_)
      decide +kernel
  distinct := by
    intro offset hoffset other hother _ _ _
    rw [mem_singleton.mp hoffset, mem_singleton.mp hother]
  plain := by
    intro offset hoffset _
    rw [mem_singleton.mp hoffset]
    decide +kernel

theorem imageDisc_locates :
    Locates imageDisc (rootDirectoryRecord imageDisc) [ascii "image.bin"] [] imageFile := by
  have hhere := Locates.here imageDisc_directory (mem_singleton_self 0) (by decide +kernel)
  have hname : iso9660NameTranslate
      (nameAt (sectors imageDisc (recordExtent (rootDirectoryRecord imageDisc))) 0) =
      ascii "image.bin" := by
    decide +kernel
  have hrecord : recordAt (sectors imageDisc (recordExtent (rootDirectoryRecord imageDisc))) 0 =
      imageFile := by
    decide +kernel
  rwa [hname, hrecord] at hhere

/-! ### The call -/

section

variable {disc : Bytes} {names : List (List UInt8)} {passed : List DirRecord} {file : DirRecord}

/-- What a call for a path that names a file does. -/
theorem bootIso9660GetFile_eq
    (hlocates : Locates disc (rootDirectoryRecord disc) names passed file)
    (hlength : (pathText names).length ≤ 255) (memory : Bytes) (dwFileLengthMax : UInt32) :
    bootIso9660GetFile disc memory (pathText names) dwFileLengthMax =
      if entered passed ∧ recordExtent file ≠ 0 then
        some (asInt (reportedSize memory file dwFileLengthMax),
          sectorCopies disc (recordExtent file)
            ((roundedSize (reportedSize memory file dwFileLengthMax)).toNat / 2048))
      else some (-1, []) := by
  have hdepth : names.length ≤ (pathText names).length + 1 :=
    (length_le_length_pathText names).trans (Nat.le_succ _)
  rw [bootIso9660GetFile, readDir_of_locates hlocates.zero_not_mem hlength hlocates
    (nil_append _).symm hdepth]
  by_cases hpassed : entered passed
  · rw [if_pos hpassed]
    by_cases hextent : recordExtent file = 0
    · simp [hextent]
    · have hpositive : 0 < recordExtent file := UInt32.pos_iff_ne_zero.mpr hextent
      simp only [Option.bind_eq_bind, Option.bind_some, if_pos hpositive, readFile_eq]
      rw [if_pos ⟨hpassed, hextent⟩]
  · rw [if_neg hpassed, if_neg fun hboth ↦ hpassed hboth.1]
    rfl

/-- The call answers how many bytes of the file it gives, the buffer starts with them, and nothing
is written from the limit on. -/
def HonoursLimit (disc memory : Bytes) (path : List UInt8) (file : DirRecord)
    (limit : UInt32) : Prop :=
  ∃ copies, bootIso9660GetFile disc memory path limit =
      some (((min (recordSize file).toNat limit.toNat : ℕ) : Int), copies) ∧
    (∀ (buffer : Bytes) (index : ℕ), index < min (recordSize file).toNat limit.toNat →
      writeFields copies buffer index = disc (2048 * (recordExtent file).toNat + index)) ∧
    ∀ index, Written copies index → index < limit.toNat

/-- The sizes and limits for which the sectors that are copied end before the limit. -/
def EndsInTime (memory : Bytes) (size limit : UInt32) : Prop :=
  (size < limit ∧ size.toNat < 2 ^ 31 ∧ roundedSize size ≤ limit) ∨
    (limit = 2048 ∧ limit ≤ size ∧ littleEndian32 memory 2048 = 2048)

theorem endsInTime_iff {memory : Bytes} {limit : UInt32} (hlimit : 0 < limit) :
    EndsInTime memory (recordSize file) limit ↔
      (reportedSize memory file limit).toNat = min (recordSize file).toNat limit.toNat ∧
        min (recordSize file).toNat limit.toNat < 2 ^ 31 ∧
        (roundedSize (reportedSize memory file limit)).toNat ≤ limit.toNat := by
  rw [reportedSize, EndsInTime]
  by_cases hbelow : recordSize file < limit
  · have hnat := UInt32.lt_iff_toNat_lt.mp hbelow
    rw [if_pos hbelow, min_eq_left hnat.le, UInt32.le_iff_toNat_le]
    constructor
    · rintro (⟨-, hsize, hend⟩ | ⟨-, hle, -⟩)
      · exact ⟨rfl, hsize, hend⟩
      · exact absurd hbelow (UInt32.not_lt.mpr hle)
    · rintro ⟨-, hsize, hend⟩
      exact .inl ⟨hbelow, hsize, hend⟩
  · have hle := UInt32.not_lt.mp hbelow
    rw [if_neg hbelow, min_eq_right (UInt32.le_iff_toNat_le.mp hle)]
    constructor
    · rintro (⟨hlt, -⟩ | ⟨rfl, -, hword⟩)
      · exact absurd hlt hbelow
      · have hword' : littleEndian32 memory (2048 : UInt32).toNat = 2048 := hword
        rw [hword']
        decide
    · rintro ⟨hword, hsmall, hend⟩
      -- a limit that is answered is exceeded by the last sector, except when it is one sector
      rw [UInt32.toNat_inj] at hword
      rw [hword, roundedSize_toNat hsmall] at hend
      have hsector : limit.toNat = 2048 := by
        split_ifs at hend <;> omega
      obtain rfl : limit = 2048 := UInt32.toNat_inj.mp hsector
      exact .inr ⟨rfl, hle, hword⟩

theorem roundedSize_whole {size : UInt32} (hsize : size.toNat < 2 ^ 31) :
    (roundedSize size).toNat / 2048 * 2048 = (roundedSize size).toNat ∧
      size.toNat ≤ (roundedSize size).toNat := by
  rw [roundedSize_toNat hsize]
  split_ifs <;> omega

/-- The limit is honoured exactly for files at an extent other than zero, below directories with
names of more than one letter, with a size below `2 ^ 31` and below the limit such that the last
sector ends before the limit, or with the limit 2048 if the word at this address happens to be the
same number. -/
theorem bootIso9660GetFile_honours_iff (memory : Bytes)
    (hlocates : Locates disc (rootDirectoryRecord disc) names passed file)
    (hlength : (pathText names).length ≤ 255)
    (hfile : 2048 * (recordExtent file).toNat + (recordSize file).toNat ≤ 2 ^ 43)
    {limit : UInt32} (hlimit : 0 < limit) :
    HonoursLimit disc memory (pathText names) file limit ↔
      (∀ dir ∈ passed, 1 < recordNameLen dir) ∧ recordExtent file ≠ 0 ∧
        EndsInTime memory (recordSize file) limit := by
  rw [HonoursLimit, bootIso9660GetFile_eq hlocates hlength, endsInTime_iff hlimit]
  constructor
  · rintro ⟨copies, hcall, -, hwritten⟩
    split_ifs at hcall with hfound
    · obtain ⟨hvalue, rfl⟩ := Prod.mk.inj (Option.some.inj hcall)
      obtain ⟨hreported, hsmall⟩ := asInt_eq_iff.mp hvalue
      obtain ⟨hwhole, hcovers⟩ := roundedSize_whole (hreported ▸ hsmall)
      refine ⟨entered_iff.mp hfound.1, hfound.2, hreported, hsmall, ?_⟩
      by_contra hend
      -- the last byte of the last sector
      have hlast := hwritten ((roundedSize (reportedSize memory file limit)).toNat - 1)
        (written_sectorCopies_iff.mpr (by omega))
      omega
    · have hvalue := (Prod.mk.inj (Option.some.inj hcall)).1
      omega
  · rintro ⟨hpassed, hextent, hreported, hsmall, hend⟩
    obtain ⟨hwhole, hcovers⟩ := roundedSize_whole (hreported ▸ hsmall)
    rw [if_pos ⟨entered_iff.mpr hpassed, hextent⟩, asInt_eq_iff.mpr ⟨hreported, hsmall⟩]
    refine ⟨_, rfl, ?_, ?_⟩
    · intro buffer index hindex
      rw [writeFields_sectorCopies (by omega), sectors, Nat.mod_eq_of_lt (by omega)]
      congr 1
      omega
    · intro index hwritten
      have hindex := written_sectorCopies_iff.mp hwritten
      omega

end

/-- A buffer of one sector is enough for a short file. -/
theorem imageDisc_honours :
    HonoursLimit imageDisc (fun _ ↦ 0) (pathText [ascii "image.bin"]) imageFile 2048 :=
  (bootIso9660GetFile_honours_iff (fun _ ↦ 0) imageDisc_locates (by decide) (by decide +kernel)
    (show (0 : UInt32) < 2048 by decide)).mpr
    ⟨nofun, by decide +kernel,
      .inl ⟨by decide +kernel, by decide +kernel, by decide +kernel⟩⟩

/-- With the limit 16, as `BootLoadFlashCD` has it, a whole sector is copied. -/
theorem imageDisc_exceeds :
    bootIso9660GetFile imageDisc (fun _ ↦ 0) (pathText [ascii "image.bin"]) 16 =
        some (5, sectorCopies imageDisc 21 1) ∧
      Written (sectorCopies imageDisc 21 1) 16 ∧
      ¬ HonoursLimit imageDisc (fun _ ↦ 0) (pathText [ascii "image.bin"]) imageFile 16 := by
  have hcall : bootIso9660GetFile imageDisc (fun _ ↦ 0) (pathText [ascii "image.bin"]) 16 =
      some (5, sectorCopies imageDisc 21 1) := by
    rw [bootIso9660GetFile_eq imageDisc_locates (by decide),
      if_pos ⟨show entered [] = true from rfl, by decide +kernel⟩,
      show reportedSize (fun _ ↦ 0) imageFile 16 = 5 by decide +kernel,
      show recordExtent imageFile = 21 by decide +kernel]
    rfl
  have hwritten : Written (sectorCopies imageDisc 21 1) 16 :=
    written_sectorCopies_iff.mpr (by decide)
  refine ⟨hcall, hwritten, ?_⟩
  rintro ⟨copies, hother, -, hlimit⟩
  obtain ⟨-, rfl⟩ := Prod.mk.inj (Option.some.inj (hcall.symm.trans hother))
  exact absurd (hlimit 16 hwritten) (by decide)

end XBlast.Cdrom
