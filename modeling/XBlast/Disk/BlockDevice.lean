import XBlast.Foundation.ByteImage
import XBlast.Foundation.Program

/-!
# Hard disks as the file system sees them

The file system reaches a disk through 'diskio.c' only, which moves whole sectors of 512 bytes. A
`DiskIo` is one behaviour of a disk under these operations, and every operation may fail. A
`BlockDevice` is what a disk promises: a sector that was written holds the data, a failed write
leaves the sector as it was or as it was meant to be, and nothing else changes. `faulty` is the
reason of every failure, so that a disk that is not faulty never fails.
-/

set_option autoImplicit false
set_option relaxedAutoImplicit false

namespace XBlast.Disk

open Foundation Program

/-- The codes that the functions of the file system return. -/
inductive FResult where
  | ok | fatxOk | diskErr | intErr | notReady | noFile | noPath | invalidName | denied | exist
  | invalidObject | writeProtected | invalidDrive | notEnabled | noFilesystem | mkfsAborted
  | timeout | locked | notEnoughCore | tooManyOpenFiles | invalidParameter
  deriving DecidableEq, Repr

/-- The number of a code. -/
def FResult.number (code : FResult) : Int := code.ctorIdx

/-- One behaviour of a disk under the operations of 'BootIde.c'. -/
structure DiskIo (δ : Type) where
  getSectorCount : δ → UInt64
  driveExists : δ → Bool
  isATAPI : δ → Bool
  readSector : UInt32 → δ → Option Bytes × δ
  writeSector : Bytes → UInt32 → δ → Bool × δ
  flushCache : δ → Bool × δ

variable {δ : Type}

/-- A disk that holds an array of bytes, 512 in each sector. -/
structure BlockDevice (io : DiskIo δ) where
  content : δ → Bytes
  faulty : Prop
  read_content : ∀ sector disk, content (io.readSector sector disk).2 = content disk
  read_some : ∀ sector disk data, (io.readSector sector disk).1 = some data →
    ∀ index < 512, data index = content disk (512 * sector.toNat + index)
  read_none : ∀ sector disk, (io.readSector sector disk).1 = none → faulty
  write_done : ∀ data sector disk, (io.writeSector data sector disk).1 = true →
    content (io.writeSector data sector disk).2 =
      overlay (content disk) (512 * sector.toNat) 512 data
  write_failed : ∀ data sector disk, (io.writeSector data sector disk).1 = false → faulty ∧
    (content (io.writeSector data sector disk).2 = content disk ∨
      content (io.writeSector data sector disk).2 =
        overlay (content disk) (512 * sector.toNat) 512 data)
  flush_content : ∀ disk, content (io.flushCache disk).2 = content disk
  flush_failed : ∀ disk, (io.flushCache disk).1 = false → faulty

/-! ### The operations of the lower layer -/

/-- `disk_read` of one sector. -/
def diskRead (io : DiskIo δ) (sector : UInt32) : Program δ FResult Bytes := fun disk ↦
  match io.readSector sector disk with
  | (some data, disk) => (.ok data, disk)
  | (none, disk) => (.error .diskErr, disk)

def writeSector (io : DiskIo δ) (data : Bytes) (sector : UInt32) : Program δ FResult Unit :=
  fun disk ↦
    match io.writeSector data sector disk with
    | (true, disk) => (.ok (), disk)
    | (false, disk) => (.error .diskErr, disk)

/-- `disk_write`: the sectors are written one after the other, up to the first failure. -/
def diskWrite (io : DiskIo δ) (buff : Bytes) (sector : UInt32) (count : ℕ) :
    Program δ FResult Unit :=
  Program.forRange (fun index ↦ writeSector io (fun offset ↦ buff (512 * index + offset))
    (sector + UInt32.ofNat index)) 0 count

/-- `disk_ioctl` with `CTRL_SYNC`. -/
def diskSync (io : DiskIo δ) : Program δ FResult Unit := fun disk ↦
  match io.flushCache disk with
  | (true, disk) => (.ok (), disk)
  | (false, disk) => (.error .diskErr, disk)

/-! ### What they do to the content -/

variable {io : DiskIo δ}

variable (device : BlockDevice io)

theorem diskRead_spec (sector : UInt32) (disk : δ) :
    (diskRead io sector).wp
      (fun data after ↦ device.content after = device.content disk ∧
        ∀ index < 512, data index = device.content disk (512 * sector.toNat + index))
      (fun code after ↦ code = .diskErr ∧ device.faulty ∧
        device.content after = device.content disk) disk := by
  have hcontent := device.read_content sector disk
  rw [Program.wp, diskRead]
  rcases hread : io.readSector sector disk with ⟨data | data, after⟩
  · rw [hread] at hcontent
    exact ⟨rfl, device.read_none sector disk (by rw [hread]), hcontent⟩
  · rw [hread] at hcontent
    exact ⟨hcontent, device.read_some sector disk data (by rw [hread])⟩

theorem writeSector_spec (data : Bytes) (sector : UInt32) (disk : δ) :
    (writeSector io data sector).wp
      (fun _ after ↦ device.content after =
        overlay (device.content disk) (512 * sector.toNat) 512 data)
      (fun code after ↦ code = .diskErr ∧ device.faulty ∧
        (device.content after = device.content disk ∨ device.content after =
          overlay (device.content disk) (512 * sector.toNat) 512 data)) disk := by
  rw [Program.wp, writeSector]
  rcases hwrite : io.writeSector data sector disk with ⟨done, after⟩
  cases done with
  | true =>
    have hdone := device.write_done data sector disk (by rw [hwrite])
    rw [hwrite] at hdone
    exact hdone
  | false =>
    have hfailed := device.write_failed data sector disk (by rw [hwrite])
    rw [hwrite] at hfailed
    exact ⟨rfl, hfailed⟩

theorem diskSync_spec (disk : δ) :
    (diskSync io).wp (fun _ after ↦ device.content after = device.content disk)
      (fun code after ↦ code = .diskErr ∧ device.faulty ∧
        device.content after = device.content disk) disk := by
  have hcontent := device.flush_content disk
  rw [Program.wp, diskSync]
  rcases hflush : io.flushCache disk with ⟨done, after⟩
  rw [hflush] at hcontent
  cases done with
  | true => exact hcontent
  | false => exact ⟨rfl, device.flush_failed disk (by rw [hflush]), hcontent⟩

/-- Writing a further sector of a buffer extends the range that was copied from it. -/
theorem overlay_sector (base buff : Bytes) (start index : ℕ) :
    overlay (overlay base (512 * start) (512 * index) buff) (512 * (start + index)) 512
      (fun offset ↦ buff (512 * index + offset)) =
        overlay base (512 * start) (512 * (index + 1)) buff := by
  rw [Nat.mul_add, overlay_append fun offset _ ↦ rfl, Nat.mul_add, mul_one]

/-- A whole buffer is copied to the disk. When that fails, a part of it may have been. -/
theorem diskWrite_spec (buff : Bytes) {sector : UInt32} {count : ℕ}
    (hrange : sector.toNat + count ≤ 2 ^ 32) (disk : δ) :
    (diskWrite io buff sector count).wp
      (fun _ after ↦ device.content after =
        overlay (device.content disk) (512 * sector.toNat) (512 * count) buff)
      (fun code after ↦ code = .diskErr ∧ device.faulty ∧ ∃ written ≤ count,
        device.content after =
          overlay (device.content disk) (512 * sector.toNat) (512 * written) buff) disk := by
  refine wp_mono (wp_forRange (fun index after ↦ device.content after =
    overlay (device.content disk) (512 * sector.toNat) (512 * index) buff) ?_ ?_) ?_
    fun _ _ herror ↦ herror
  · funext address
    rw [overlay_outside (by omega)]
  · intro index before _ hindex hbefore
    have hsector : (sector + UInt32.ofNat index).toNat = sector.toNat + index := by
      rw [UInt32.toNat_add, UInt32.toNat_ofNat_of_lt' (show index < 2 ^ 32 by omega),
        Nat.mod_eq_of_lt (by omega)]
    have hwritten := overlay_sector (device.content disk) buff sector.toNat index
    refine wp_mono (writeSector_spec device _ _ before) ?_ ?_
    · intro _ after hafter
      rw [hafter, hbefore, hsector, hwritten]
    · rintro code after ⟨hcode, hfaulty, hkept | hnew⟩
      · exact ⟨hcode, hfaulty, index, by omega, hkept.trans hbefore⟩
      · rw [hbefore, hsector, hwritten] at hnew
        exact ⟨hcode, hfaulty, index + 1, by omega, hnew⟩
  · intro _ after hafter
    rwa [zero_add] at hafter

/-! ### A disk that never fails -/

structure RamDisk where
  sectorCount : UInt64
  bytes : Bytes

def ramDisk : DiskIo RamDisk where
  getSectorCount disk := disk.sectorCount
  driveExists _ := true
  isATAPI _ := false
  readSector sector disk := (some fun index ↦ disk.bytes (512 * sector.toNat + index), disk)
  writeSector data sector disk :=
    (true, { disk with bytes := overlay disk.bytes (512 * sector.toNat) 512 data })
  flushCache disk := (true, disk)

def ramDevice : BlockDevice ramDisk where
  content disk := disk.bytes
  faulty := False
  read_content _ _ := rfl
  read_some _ _ _ hdata _ _ := by
    cases hdata
    rfl
  read_none _ _ hnone := by cases hnone
  write_done _ _ _ _ := rfl
  write_failed _ _ _ hfailed := by cases hfailed
  flush_content _ := rfl
  flush_failed _ hfailed := by cases hfailed

end XBlast.Disk
