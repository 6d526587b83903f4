import XBlast.Flash.BiosIdentifier

/-!
# The image builder

`romcopy` of 'imagebld.c' joins the 2bl loader and the compressed kernel into a flash image of
256KB, and `writeBiosIdentifier` puts the identifier at its end. The checksums are parameters: any
function from a list of bytes to 20 and to 16 bytes. A read or a write outside the buffers, which
hold 256KB each, is a `fault`.
-/

set_option autoImplicit false
set_option relaxedAutoImplicit false

namespace XBlast.Image

open Foundation Flash

/-! ### The identifier -/

/-- The fields of the identifier that are written before the hash, in the order of the source. -/
def identifierFields (biosSize : UInt32) : List (ℕ × List UInt8) :=
  [ -- Magic, "AUTO"
   (0x3FFC1, [0x41, 0x55, 0x54, 0x4F]),
   -- HeaderVersion
   (0x3FFC5, [2]),
   -- BiosSize
   (0x3FFCC, (List.range 4).map (byteOf32 biosSize)),
   -- Name, "XBlast OS 0.59"
   (0x3FFD0, progName ++ [0x20, 0x30, 0x2E, 0x35, 0x39, 0x00]),
   -- XboxVersion, VideoEncoder, Option1
   (0x3FFC6, [0xFF]), (0x3FFC7, [0x07]), (0x3FFC9, [0x01])]

/-- The header version that is written is the second, so that the hash covers `biosSize` bytes. -/
def writeBiosIdentifier (md5 : Digest 16) (cromimage : Bytes)
    (biosSize : UInt32) : Bytes :=
  let header := writeFields (identifierFields biosSize) cromimage
  overlay header 0x3FFF0 16 (md5 (bytesAt header 0 biosSize.toNat)).image

/-! ### The loader -/

/-- The code and the GDT that are dumped to the top of the image. -/
def gdtFields : List (ℕ × List UInt8) :=
  [(0x3FE00, List.replicate 512 0x90), (0x3FFD0, List.replicate 32 0x00), (0x3FFCF, [0xFC]),
   (0x3FFD0, [0xEA]), (0x3FFD2, [0x10]), (0x3FFD3, [0xFC]), (0x3FFD4, [0xFF]), (0x3FFD5, [0x08]),
   (0x3FFD7, [0x90]), (0x3FFE0, [0xFF]), (0x3FFE1, [0xFF]), (0x3FFE5, [0x9B]), (0x3FFE6, [0xCF]),
   (0x3FFE8, [0xFF]), (0x3FFE9, [0xFF]), (0x3FFED, [0x93]), (0x3FFEE, [0xCF]), (0x3FFF4, [0x18]),
   (0x3FFF5, [0x00]), (0x3FFF6, [0xD8]), (0x3FFF7, [0xFF]), (0x3FFF8, [0xFF]), (0x3FFF9, [0xFF])]

variable (loader : List UInt8)

/-- The buffer with the loader file and the GDT in it. -/
def loaderimage : Bytes :=
  writeFields gdtFields (listImage (loader.take (256 * 1024)))

/-- Where the loader says that it starts. -/
def bootloaderpos : UInt32 := littleEndian32 (loaderimage loader) 0x40

/-- The buffer once the place of `bootloaderpos` has been cleared. -/
def clearedLoader : Bytes := fill (loaderimage loader) 0x40 4 0

/-- The size that the loader has in RAM, with the checksum structure in front of it. -/
def sizeRamcopy : UInt32 :=
  littleEndian32 (clearedLoader loader) ((bootloaderpos loader).toNat + 20)

/-- How many bytes the checksum of the loader covers. The subtraction is unsigned. -/
def hashedSize : ℕ := (sizeRamcopy loader - 24).toNat

variable (sha1 : Digest 20)

/-- The buffer with the checksum structure of the loader. The structure is copied into the image a
second time later on, over the same bytes. -/
def hashedLoader (loader : List UInt8) : Bytes :=
  let start := (bootloaderpos loader).toNat
  let digest := sha1 (bytesAt (clearedLoader loader) (start + 24) (hashedSize loader))
  overlay (overlay (clearedLoader loader) start 20 digest.image) (start + 20) 4
    (byteOf32 (sizeRamcopy loader))

/-! ### The image -/

/-- The kernel with its size and its checksum, and the padding up to the top 512 bytes. The size
is copied together with 20 bytes that the checksum then replaces. -/
def kernelFlash (flash256 : Bytes) (crom : List UInt8) (romsize : ℕ) : Bytes :=
  let sized := overlay flash256 0x3014 4 (byteOf32 (UInt32.ofNat romsize))
  let padded := fill sized (0x3018 + romsize) (256 * 1024 - (0x3018 + romsize) - 512) 0xFF
  let filled := overlay padded 0x3018 romsize (listImage crom)
  overlay filled 0x3000 20 (sha1 (bytesAt filled 0x3018 romsize)).image

inductive Outcome where
  | fault
  | notWritten
  | written (image : Bytes)

/-- The size of the kernel file is taken as a 32-bit word. -/
def romcopy (md5 : Digest 16) (loader crom : List UInt8) : Outcome :=
  let romsize := crom.length % 2 ^ 32
  if 256 * 1024 < romsize then .fault
  else if 256 * 1024 < (bootloaderpos loader).toNat + 24 + hashedSize loader then .fault
  else if 0x3000 < (bootloaderpos loader + sizeRamcopy loader).toNat then .notWritten
  else if 252 * 1024 - 0x3018 < romsize then .notWritten
  else
    .written (writeBiosIdentifier md5 (kernelFlash sha1 (hashedLoader sha1 loader) crom romsize)
      (UInt32.ofNat (0x3018 + romsize)))

/-! ### The loader at boot -/

/-- The loop of `BootStartBiosLoader` that copies the kernel from the flash and checks it, with
the number of tries that are left. -/
def loadKernel (sha1 : Digest 20) (flash : Bytes) : ℕ → Option (List UInt8)
  | 0 => none
  | tries + 1 =>
    let size := (littleEndian32 flash 0x3014).toNat
    if size < 50000 ∨ 256 * 1024 - 0x3018 - 4 * 1024 < size then none
    else if readPacked 20 flash 0x3000 = sha1 (bytesAt flash 0x3018 size) then
      some (bytesAt flash 0x3018 size)
    else loadKernel sha1 flash tries

def bootStartBiosLoader (flash : Bytes) : Option (List UInt8) :=
  loadKernel sha1 flash 10

/-! ### What is where in the image -/

theorem writeBiosIdentifier_below (md5 : Digest 16) {cromimage : Bytes}
    (biosSize : UInt32) {address : ℕ} (haddress : address < 0x3FFC1) :
    writeBiosIdentifier md5 cromimage biosSize address = cromimage address := by
  rw [writeBiosIdentifier, overlay_outside (.inl (by omega)), writeFields_outside]
  simp only [identifierFields, List.forall_mem_cons]
  simp
  omega

section

variable {sha1 : Digest 20} {flash256 : Bytes} {crom : List UInt8} {romsize : ℕ}

theorem kernelFlash_kernel {index : ℕ} (hindex : index < romsize) :
    kernelFlash sha1 flash256 crom romsize (0x3018 + index) = listImage crom index := by
  rw [kernelFlash, overlay_outside (.inr (by omega)), overlay_add hindex]

theorem kernelFlash_size :
    littleEndian32 (kernelFlash sha1 flash256 crom romsize) 0x3014 = UInt32.ofNat romsize := by
  refine littleEndian32_eq fun index hindex ↦ ?_
  rw [kernelFlash, overlay_outside (.inr (by omega)), overlay_outside (.inl (by omega)),
    fill_outside (.inl (by omega)), overlay_add hindex]

theorem kernelFlash_checksum :
    readPacked 20 (kernelFlash sha1 flash256 crom romsize) 0x3000 =
      sha1 (bytesAt (kernelFlash sha1 flash256 crom romsize) 0x3018 romsize) := by
  have hbytes : bytesAt (kernelFlash sha1 flash256 crom romsize) 0x3018 romsize =
      bytesAt (overlay (fill (overlay flash256 0x3014 4 (byteOf32 (UInt32.ofNat romsize)))
        (0x3018 + romsize) (256 * 1024 - (0x3018 + romsize) - 512) 0xFF) 0x3018 romsize
        (listImage crom)) 0x3018 romsize :=
    bytesAt_congr fun index _ ↦ overlay_outside (.inr (by omega))
  rw [hbytes]
  exact readPacked_eq fun index hindex ↦ overlay_add hindex

end

end XBlast.Image
