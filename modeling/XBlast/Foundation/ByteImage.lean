import Mathlib.Algebra.Group.Nat.Defs
import Mathlib.Tactic.Common

/-!
# Byte images, packed records and little-endian words

A byte image assigns a byte to every address: a memory, a flash chip, a sector. `overlay` copies
a block of bytes into an image and `fill` sets a block to one value, the two ways a program with
flat buffers changes them. A packed record is a fixed number of bytes without padding; `image`
lays it out from address zero and `readPacked` takes it back from anywhere. Words of 16 and 32
bits are stored least significant byte first.

Nothing here depends on a particular program.
-/

set_option autoImplicit false
set_option relaxedAutoImplicit false

namespace XBlast.Foundation

open List Function UInt8

/-- A byte image: a byte at every address. -/
abbrev Bytes := ℕ → UInt8

/-! ### Copying a block into an image -/

/-- The image whose `length` bytes from `start` on are the first bytes of `patch`. -/
def overlay (base : Bytes) (start length : ℕ) (patch : Bytes) : Bytes :=
  fun address ↦ if start ≤ address ∧ address < start + length then patch (address - start)
    else base address

/-- The image whose `length` bytes from `start` on are all `value`. -/
def fill (base : Bytes) (start length : ℕ) (value : UInt8) : Bytes :=
  overlay base start length fun _ ↦ value

variable {base other patch : Bytes} {start length address : ℕ}

theorem overlay_inside (hlow : start ≤ address) (hhigh : address < start + length) :
    overlay base start length patch address = patch (address - start) :=
  if_pos ⟨hlow, hhigh⟩

variable {offset : ℕ}

theorem overlay_add (hoffset : offset < length) :
    overlay base start length patch (start + offset) = patch offset := by
  rw [overlay_inside (Nat.le_add_right start offset) (Nat.add_lt_add_left hoffset start),
    Nat.add_sub_cancel_left]

theorem overlay_outside (houtside : address < start ∨ start + length ≤ address) :
    overlay base start length patch address = base address :=
  if_neg fun hinside ↦ by omega

/-- An image is an overlay if it has the bytes of the patch inside and those of the base outside. -/
theorem eq_overlay {image : Bytes}
    (hinside : ∀ offset < length, image (start + offset) = patch offset)
    (houtside : ∀ address, address < start ∨ start + length ≤ address →
      image address = base address) :
    image = overlay base start length patch := by
  funext address
  by_cases haddress : start ≤ address ∧ address < start + length
  · obtain ⟨offset, rfl⟩ := Nat.exists_eq_add_of_le haddress.1
    have hoffset : offset < length := by omega
    rw [overlay_add hoffset, hinside offset hoffset]
  · rw [overlay_outside (by omega), houtside address (by omega)]

theorem overlay_congr (hbase : base address = other address) :
    overlay base start length patch address = overlay other start length patch address := by
  rw [overlay, overlay, hbase]

/-- Copying a block and looking at the result from a shifted origin can be done in either
order. -/
theorem overlay_shift {shift index : ℕ} (hbase : base index = other (shift + index)) :
    overlay base start length patch index =
      overlay other (shift + start) length patch (shift + index) := by
  by_cases hinside : start ≤ index ∧ index < start + length
  · rw [overlay_inside hinside.1 hinside.2, overlay_inside (by omega) (by omega),
      Nat.add_sub_add_left]
  · rw [overlay_outside (by omega), overlay_outside (by omega), hbase]

/-- Two overlays side by side are one. -/
theorem overlay_append {more : ℕ} {next : Bytes}
    (hnext : ∀ offset < more, next offset = patch (length + offset)) :
    overlay (overlay base start length patch) (start + length) more next =
      overlay base start (length + more) patch := by
  refine eq_overlay (fun offset hoffset ↦ ?_) fun address houtside ↦ ?_
  · by_cases hfirst : offset < length
    · rw [overlay_outside (by omega), overlay_add hfirst]
    · obtain ⟨index, rfl⟩ := Nat.exists_eq_add_of_le (Nat.le_of_not_lt hfirst)
      have hindex : index < more := by omega
      rw [← add_assoc, overlay_add hindex, hnext index hindex]
  · rw [overlay_outside (by omega), overlay_outside (by omega)]

/-- Writing one byte is an overlay of length one. -/
theorem update_eq_overlay (base : Bytes) (address : ℕ) (value : UInt8) :
    update base address value = overlay base address 1 fun _ ↦ value := by
  funext index
  by_cases hindex : index = address
  · rw [hindex, update_self, overlay_inside (Nat.le_refl address) (by omega)]
  · rw [update_of_ne hindex, overlay_outside (by omega)]

/-- A byte written inside a copied block can be written to the block before it is copied. -/
theorem update_overlay (hoffset : offset < length) (value : UInt8) :
    update (overlay base start length patch) (start + offset) value =
      overlay base start length (update patch offset value) := by
  refine eq_overlay (fun other hother ↦ ?_) fun index houtside ↦ ?_
  · by_cases hsame : other = offset
    · rw [hsame, update_self, update_self]
    · rw [update_of_ne (by omega), update_of_ne hsame, overlay_add hother]
  · rw [update_of_ne (by omega), overlay_outside houtside]

theorem fill_inside {value : UInt8} (hlow : start ≤ address) (hhigh : address < start + length) :
    fill base start length value address = value :=
  overlay_inside hlow hhigh

theorem fill_outside {value : UInt8} (houtside : address < start ∨ start + length ≤ address) :
    fill base start length value address = base address :=
  overlay_outside houtside

/-! ### Lists of bytes -/

/-- A property of the members of a list of bytes is decided on the list, not on all bytes. -/
instance (priority := high) decidableForallMem {property : UInt8 → Prop} [DecidablePred property]
    (bytes : List UInt8) : Decidable (∀ byte ∈ bytes, property byte) :=
  List.decidableBAll property bytes

instance (priority := high) decidableExistsMem {property : UInt8 → Prop} [DecidablePred property]
    (bytes : List UInt8) : Decidable (∃ byte ∈ bytes, property byte) :=
  List.decidableBEx property bytes

/-- A property of all bytes is decided on the 256 numbers. -/
theorem forall_byte {property : UInt8 → Prop}
    (hall : ∀ number : Fin 256, property (UInt8.ofNat number.val)) (byte : UInt8) :
    property byte := by
  have hbyte := hall ⟨byte.toNat, byte.toNat_lt⟩
  rwa [UInt8.ofNat_toNat] at hbyte

variable (source : Bytes)

/-- The bytes of a range of an image. -/
def bytesAt (start length : ℕ) : List UInt8 :=
  (List.range length).map fun index ↦ source (start + index)

/-- A list of bytes laid out from address zero on. -/
def listImage (bytes : List UInt8) : Bytes := fun index ↦ bytes.getD index 0

/-- Lists of bytes written one after the other, each at its address. -/
def writeFields (fields : List (ℕ × List UInt8)) (target : Bytes) : Bytes :=
  fields.foldl (fun image field ↦ overlay image field.1 field.2.length (listImage field.2)) target

theorem bytesAt_congr
    (hbytes : ∀ index < length, base (start + index) = other (start + index)) :
    bytesAt base start length = bytesAt other start length :=
  map_congr_left fun index hindex ↦ hbytes index (mem_range.mp hindex)

/-- A list is read back from every image that holds its bytes. -/
theorem bytesAt_eq {source : Bytes} {bytes : List UInt8}
    (hbytes : ∀ index < bytes.length, source (start + index) = listImage bytes index) :
    bytesAt source start bytes.length = bytes := by
  apply ext_getElem
  · simp [bytesAt]
  · intro index hleft hright
    simp only [bytesAt, getElem_map, getElem_range]
    rw [hbytes index hright, listImage, getD_eq_getElem?_getD,
      getElem?_eq_getElem hright, Option.getD_some]

/-- A list followed by zeros is laid out as without them. -/
theorem listImage_append_replicate (bytes : List UInt8) (count index : ℕ) :
    listImage (bytes ++ List.replicate count 0) index = listImage bytes index := by
  simp only [listImage, getD_eq_getElem?_getD, getElem?_append, getElem?_replicate]
  split
  · rfl
  · rename_i hlength
    rw [getElem?_eq_none (Nat.not_lt.mp hlength)]
    split <;> rfl

theorem listImage_append_add (before after : List UInt8) (offset : ℕ) :
    listImage (before ++ after) (before.length + offset) = listImage after offset := by
  simp only [listImage, getD_eq_getElem?_getD]
  rw [getElem?_append_right (Nat.le_add_right _ _), Nat.add_sub_cancel_left]

theorem listImage_append_mem {before after : List UInt8} (hoffset : offset < before.length) :
    listImage (before ++ after) offset ∈ before := by
  simp only [listImage, getD_eq_getElem?_getD]
  rw [getElem?_append_left hoffset, getElem?_eq_getElem hoffset, Option.getD_some]
  exact getElem_mem hoffset

/-- The bytes of a part of a list. -/
theorem bytesAt_listImage (before bytes after : List UInt8) :
    bytesAt (listImage (before ++ (bytes ++ after))) before.length bytes.length = bytes := by
  apply bytesAt_eq
  intro index hindex
  rw [listImage_append_add]
  simp only [listImage, getD_eq_getElem?_getD]
  rw [getElem?_append_left hindex]

/-- The bytes at the start of a word and a mark behind it begin the word, if they do not contain the
mark. -/
theorem isPrefix_of_bytesAt {keyword word : List UInt8} {mark : UInt8} (hmark : mark ∉ keyword)
    {after : List UInt8}
    (hbytes : bytesAt (listImage (word ++ mark :: after)) 0 keyword.length = keyword) :
    keyword <+: word := by
  by_cases hlength : keyword.length ≤ word.length
  · have htake := bytesAt_listImage [] (word.take keyword.length)
      (word.drop keyword.length ++ mark :: after)
    rw [nil_append, ← append_assoc, take_append_drop, length_nil,
      length_take, Nat.min_eq_left hlength, hbytes] at htake
    rw [htake]
    exact take_prefix _ _
  · have hmem : listImage (word ++ mark :: after) (0 + word.length) ∈ keyword := by
      rw [← hbytes]
      exact mem_map.mpr ⟨word.length, mem_range.mpr (Nat.lt_of_not_le hlength), rfl⟩
    rw [add_comm, listImage_append_add] at hmem
    exact absurd hmem hmark

variable {fields : List (ℕ × List UInt8)}

theorem writeFields_outside
    (houtside : ∀ field ∈ fields, address < field.1 ∨ field.1 + field.2.length ≤ address) :
    writeFields fields base address = base address := by
  induction fields generalizing base with
  | nil => rfl
  | cons field fields ih =>
    rw [writeFields, foldl_cons]
    refine (ih fun other hother ↦ houtside other (mem_cons_of_mem field hother)).trans ?_
    exact overlay_outside (houtside field mem_cons_self)

theorem writeFields_congr (hbase : base address = other address) :
    writeFields fields base address = writeFields fields other address := by
  induction fields generalizing base other with
  | nil => exact hbase
  | cons field fields ih => exact ih (overlay_congr hbase)

/-- Two fields that share no address. -/
def FieldsApart (first second : ℕ × List UInt8) : Prop :=
  first.1 + first.2.length ≤ second.1 ∨ second.1 + second.2.length ≤ first.1

theorem FieldsApart.symm {first second : ℕ × List UInt8} (h : FieldsApart first second) :
    FieldsApart second first :=
  Or.symm h

/-- Fields that are apart are each read back, in whatever order they were written. -/
theorem writeFields_inside (hapart : fields.Pairwise FieldsApart) {field : ℕ × List UInt8}
    (hfield : field ∈ fields) {offset : ℕ} (hoffset : offset < field.2.length) :
    writeFields fields base (field.1 + offset) = listImage field.2 offset := by
  induction fields generalizing base with
  | nil => exact nomatch hfield
  | cons first fields ih =>
    rw [pairwise_cons] at hapart
    obtain rfl | hrest := mem_cons.mp hfield
    · have houtside : ∀ other ∈ fields,
          field.1 + offset < other.1 ∨ other.1 + other.2.length ≤ field.1 + offset := by
        intro other hother
        have hboth := hapart.1 other hother
        rw [FieldsApart] at hboth
        omega
      exact (writeFields_outside houtside).trans (overlay_add hoffset)
    · exact ih hapart.2 hrest

/-! ### Packed records -/

/-- A packed record of `size` bytes. -/
abbrev Packed (size : ℕ) := Fin size → UInt8

/-- A checksum over a list of bytes. -/
abbrev Digest (size : ℕ) := List UInt8 → Packed size

variable {size : ℕ} (record : Packed size)

/-- The bytes of a record laid out from address zero on. -/
def Packed.image : Bytes :=
  fun index ↦ if h : index < size then record ⟨index, h⟩ else 0

/-- The record whose bytes start at an address of an image. -/
def readPacked (size : ℕ) (source : Bytes) (start : ℕ) : Packed size :=
  fun index ↦ source (start + index)

theorem Packed.image_of_lt {size index : ℕ} (record : Packed size) (hindex : index < size) :
    record.image index = record ⟨index, hindex⟩ :=
  dif_pos hindex

/-- A record is read back from every image that holds its bytes. -/
theorem readPacked_eq {record : Packed size} {source : Bytes}
    (hbytes : ∀ index < size, source (start + index) = record.image index) :
    readPacked size source start = record := by
  funext index
  rw [readPacked, hbytes index index.isLt, record.image_of_lt index.isLt]

/-- Two images that hold the same bytes at an address hold the same record there. -/
theorem readPacked_congr (hbytes : ∀ index < size, base (start + index) = other (start + index)) :
    readPacked size base start = readPacked size other start := by
  funext index
  exact hbytes index index.isLt

/-- The bytes of a range of a record. -/
def Packed.bytes (start length : ℕ) : List UInt8 :=
  bytesAt record.image start length

/-- The record with a list of bytes written from `start` on. -/
def Packed.write (start : ℕ) (bytes : List UInt8) : Packed size :=
  readPacked size (overlay record.image start bytes.length (listImage bytes)) 0

theorem Packed.image_write {size start index : ℕ} (record : Packed size) (bytes : List UInt8)
    (hindex : index < size) :
    (record.write start bytes).image index =
      overlay record.image start bytes.length (listImage bytes) index := by
  rw [Packed.image_of_lt _ hindex, write, readPacked, zero_add]

@[simp] theorem Packed.length_bytes {size start length : ℕ} (record : Packed size) :
    (record.bytes start length).length = length := by
  rw [bytes, bytesAt, length_map, length_range]

/-- Adjacent ranges are read together. -/
theorem Packed.bytes_append {size start first second : ℕ} (record : Packed size) :
    record.bytes start first ++ record.bytes (start + first) second =
      record.bytes start (first + second) := by
  simp only [bytes, bytesAt, range_add, map_append, map_map, comp_def, add_assoc]

variable {bytes : List UInt8}

/-- Bytes written inside a record are read back. -/
theorem Packed.bytes_write {size start length : ℕ} (record : Packed size)
    (hlength : bytes.length = length) (hsize : start + length ≤ size) :
    (record.write start bytes).bytes start length = bytes := by
  subst hlength
  apply bytesAt_eq
  intro index hindex
  rw [record.image_write bytes (by omega), overlay_add hindex]

/-- A record copied from the start of an image has the image's bytes. -/
theorem Packed.bytes_readPacked {size start length : ℕ} {source : Bytes}
    (hsize : start + length ≤ size) :
    (readPacked size source 0).bytes start length = bytesAt source start length := by
  apply bytesAt_congr
  intro index hindex
  rw [Packed.image_of_lt _ (by omega), readPacked, zero_add]

/-- Records with the same bytes are equal. -/
theorem Packed.ext_bytes {record other : Packed size}
    (hbytes : record.bytes 0 size = other.bytes 0 size) : record = other := by
  funext index
  have hindex := map_inj_left.mp hbytes index.val (mem_range.mpr index.isLt)
  rwa [zero_add, record.image_of_lt index.isLt, other.image_of_lt index.isLt] at hindex

/-- A write leaves the bytes outside its range alone. -/
theorem Packed.write_outside {size start : ℕ} (record : Packed size) {index : Fin size}
    (houtside : index.val < start ∨ start + bytes.length ≤ index.val) :
    record.write start bytes index = record index := by
  rw [write, readPacked, zero_add, overlay_outside houtside, record.image_of_lt index.isLt]

/-- A range beside a write reads as before. -/
theorem Packed.bytes_write_outside {size start other length : ℕ} (record : Packed size)
    (houtside : other + length ≤ start ∨ start + bytes.length ≤ other) :
    (record.write start bytes).bytes other length = record.bytes other length := by
  apply bytesAt_congr
  intro index hindex
  by_cases hsize : other + index < size
  · rw [record.image_write bytes hsize, overlay_outside (by omega)]
  · rw [image, image, dif_neg hsize, dif_neg hsize]

/-! ### Little-endian words -/

/-- The 16-bit word at an offset of an image. -/
def littleEndian16 (offset : ℕ) : UInt16 :=
  UInt16.ofNat ((source offset).toNat + 0x100 * (source (offset + 1)).toNat)

/-- The 32-bit word at an offset of an image. -/
def littleEndian32 (offset : ℕ) : UInt32 :=
  UInt32.ofNat ((source offset).toNat + 0x100 * (source (offset + 1)).toNat +
    0x10000 * (source (offset + 2)).toNat + 0x1000000 * (source (offset + 3)).toNat)

/-- The byte of a 32-bit word at an index, the least significant first. -/
def byteOf32 (value : UInt32) (index : ℕ) : UInt8 :=
  UInt8.ofNat (value.toNat / 0x100 ^ index)

theorem littleEndian16_shift {offset address : ℕ}
    (hbytes : ∀ index < 2, base (offset + index) = other (address + index)) :
    littleEndian16 base offset = littleEndian16 other address := by
  have hfirst := hbytes 0 (by omega)
  rw [add_zero, add_zero] at hfirst
  simp only [littleEndian16, hfirst, hbytes 1 (by omega)]

theorem littleEndian32_shift {offset address : ℕ}
    (hbytes : ∀ index < 4, base (offset + index) = other (address + index)) :
    littleEndian32 base offset = littleEndian32 other address := by
  have hfirst := hbytes 0 (by omega)
  rw [add_zero, add_zero] at hfirst
  simp only [littleEndian32, hfirst, hbytes 1 (by omega), hbytes 2 (by omega), hbytes 3 (by omega)]

theorem littleEndian32_congr
    (hbytes : ∀ index < 4, base (offset + index) = other (offset + index)) :
    littleEndian32 base offset = littleEndian32 other offset :=
  littleEndian32_shift hbytes

/-- The lower half of a word is read back from every image that holds its first two bytes. -/
theorem littleEndian16_eq {source : Bytes} {offset : ℕ} {value : UInt32}
    (hbytes : ∀ index < 2, source (offset + index) = byteOf32 value index) :
    littleEndian16 source offset = value.toUInt16 := by
  have hfirst := hbytes 0 (by omega)
  rw [add_zero] at hfirst
  apply UInt16.toNat_inj.mp
  simp only [littleEndian16, hfirst, hbytes 1 (by omega), byteOf32, UInt16.toNat_ofNat',
    toNat_ofNat', UInt32.toNat_toUInt16]
  omega

/-- A word is read back from every image that holds its bytes. -/
theorem littleEndian32_eq {source : Bytes} {offset : ℕ} {value : UInt32}
    (hbytes : ∀ index < 4, source (offset + index) = byteOf32 value index) :
    littleEndian32 source offset = value := by
  have hfirst := hbytes 0 (by omega)
  rw [add_zero] at hfirst
  apply UInt32.toNat_inj.mp
  have hbound := value.toNat_lt
  simp only [littleEndian32, hfirst, hbytes 1 (by omega), hbytes 2 (by omega),
    hbytes 3 (by omega), byteOf32, UInt32.toNat_ofNat', toNat_ofNat']
  omega

/-- The bytes of the word at an offset are the bytes of the image. -/
theorem byteOf32_littleEndian32 (offset : ℕ) {index : ℕ} (hindex : index < 4) :
    byteOf32 (littleEndian32 source offset) index = source (offset + index) := by
  have hfirst := (source offset).toNat_lt
  have hsecond := (source (offset + 1)).toNat_lt
  have hthird := (source (offset + 2)).toNat_lt
  have hfourth := (source (offset + 3)).toNat_lt
  apply UInt8.toNat_inj.mp
  rw [byteOf32, littleEndian32, toNat_ofNat', UInt32.toNat_ofNat']
  obtain rfl | rfl | rfl | rfl : index = 0 ∨ index = 1 ∨ index = 2 ∨ index = 3 := by omega
  · simp only [add_zero]
    omega
  · omega
  · omega
  · omega

/-! ### Aligned addresses -/

/-- Clearing the low bits of a number rounds it down to a multiple of a power of two. -/
theorem land_complement {value width exponent : ℕ} (hvalue : value < 2 ^ width)
    (hexponent : exponent ≤ width) :
    value &&& (2 ^ width - 1 - (2 ^ exponent - 1)) = 2 ^ exponent * (value / 2 ^ exponent) := by
  have hpow : 2 ^ exponent ≤ 2 ^ width := Nat.pow_le_pow_right (by omega) hexponent
  have hcomplement : 2 ^ width - 1 - (2 ^ exponent - 1) = 2 ^ width - (2 ^ exponent - 1 + 1) := by
    omega
  apply Nat.eq_of_testBit_eq
  intro bit
  rw [hcomplement, Nat.testBit_and, Nat.testBit_two_pow_mul, Nat.testBit_div_two_pow,
    Nat.testBit_two_pow_sub_succ (by omega), Nat.testBit_two_pow_sub_one]
  by_cases hbit : exponent ≤ bit
  · rw [Nat.sub_add_cancel hbit]
    by_cases hword : bit < width
    · simp [hbit, hword]
    · have hhigh : value.testBit bit = false := Nat.testBit_lt_two_pow
        (Nat.lt_of_lt_of_le hvalue (Nat.pow_le_pow_right (by omega) (by omega)))
      simp [hhigh]
  · simp [hbit]
    omega

/-- Masking a word with the complement of a power of two less one rounds it down to a multiple of
that power. -/
theorem alignDown_toNat (value mask : UInt32) {exponent : ℕ} (hmask : mask.toNat = 2 ^ exponent - 1)
    (hexponent : exponent ≤ 32) :
    (value &&& ~~~mask).toNat = 2 ^ exponent * (value.toNat / 2 ^ exponent) := by
  rw [UInt32.toNat_and, UInt32.toNat_not, hmask]
  exact land_complement value.toNat_lt hexponent

theorem alignDown64_toNat (value mask : UInt64) {exponent : ℕ}
    (hmask : mask.toNat = 2 ^ exponent - 1) (hexponent : exponent ≤ 64) :
    (value &&& ~~~mask).toNat = 2 ^ exponent * (value.toNat / 2 ^ exponent) := by
  rw [UInt64.toNat_and, UInt64.toNat_not, hmask]
  exact land_complement value.toNat_lt hexponent

end XBlast.Foundation
