import XBlast.Fatx.Chains
import XBlast.Foundation.CString

/-!
# Directories of a FATX volume

A directory is a chain of clusters with entries of 64 bytes: the length of the name, the attributes,
42 bytes for the name, the first cluster, the size and three times. A directory object goes through
it one entry at a time, with the sector of the entry in the window of the filesystem object.

The functions test for the end of a directory and for a deleted entry in different ways. `dir_find`
and `dir_read` look at the length of the name, the one for 0 and the other for 0xFF. `dir_alloc`
looks at the length and at the first character of the name. `dir_register` computes the length from
the name that `create_name` has prepared.

Only what the functions do on a FATX volume is modelled.
-/

set_option autoImplicit false
set_option relaxedAutoImplicit false

namespace XBlast.Fatx

open Foundation Disk

variable {δ : Type}

/-- The directory object: where it is, and the name of the last segment of a path with the flag
behind it. The pointer `dir` into the window is not a part of it, since it always points to the
offset `dptr` of its sector. -/
structure Dir where
  sclust : UInt32
  attr : UInt8
  dptr : UInt32
  clust : UInt32
  sect : UInt32
  fnx : List UInt8
  nsxFlag : UInt8

/-- A directory object and the volume that it belongs to. -/
structure DirState (δ : Type) where
  dp : Dir
  volume : VolumeState δ

/-- Programs over a directory object. -/
abbrev DirM (δ : Type) := Program (DirState δ) FResult

def onVolume {α : Type} (program : VolumeM δ α) :
    DirM δ α :=
  program.onPart (fun state ↦ state.volume) (fun volume state ↦ { state with volume := volume })

def modifyDir (change : Dir → Dir) : DirM δ Unit :=
  Program.modify fun state ↦ { state with dp := change state.dp }

/-- The place of the current entry in the window. -/
def Dir.offset (dp : Dir) : ℕ := (dp.dptr % 512).toNat

/-- The current entry in the window. -/
def DirState.entry (state : DirState δ) : Bytes := fun index ↦
  state.volume.fs.win (state.dp.offset + index)

/-! ### The fields of an entry -/

namespace Dirx

def nameLgth : ℕ := 0
def attr : ℕ := 1
def name : ℕ := 2
def fstClus : ℕ := 44
def modTime : ℕ := 52

end Dirx

/-- `FATX_FILENAME_MAX`. -/
def fatxFilenameMax : ℕ := 42

/-- `DDEM`, the length of the name of a deleted entry. -/
def ddem : UInt8 := 0xE5

/-- `RDDEM`, which replaces a first character that equals `DDEM`. -/
def rddem : UInt8 := 0x05

/-! ### Names -/

def isSeparator (c : UInt8) : Bool := c = 0x2F ∨ c = 0x5C

/-- The characters that `create_name` refuses. -/
def illegalCharacters : List UInt8 := ascii "\"*+,:;<=>?[]|\x7F"

/-- The loop of `create_name` over the characters of a segment, with those that were taken. The
result is completed by the character that ends the segment and the rest of the path. -/
def copySegment : List UInt8 → List UInt8 → Except FResult (List UInt8 × UInt8 × List UInt8)
  | [], sfn => .ok (sfn, 0, [])
  | c :: path, sfn =>
    if c < 0x20 ∨ c = 0xFF then .ok (sfn, c, path)
    else if isSeparator c then .ok (sfn, c, path.dropWhile isSeparator)
    else if fatxFilenameMax ≤ sfn.length then .error .invalidName
    else if c ∈ illegalCharacters then .error .invalidName
    else copySegment path (sfn ++ [c])

/-- The 42 characters of a name in a directory object. -/
def paddedName (sfn : List UInt8) : List UInt8 :=
  sfn ++ List.replicate (fatxFilenameMax - sfn.length) 0xFF

/-- The name as it is stored: its first character may not be `DDEM`. -/
def storedName : List UInt8 → List UInt8
  | [] => []
  | c :: name => (if c = ddem then rddem else c) :: name

/-- `NS_LAST`, the flag of the last segment of a path. -/
def nsLast : UInt8 := 0x04

/-- Takes the next segment of a path into the directory object. The result is the rest of the path.
A name that is refused leaves the object alone here; its name is not used then. -/
def createName (path : List UInt8) : DirM δ (List UInt8) := do
  let (sfn, c, rest) ← Program.ofExcept (copySegment path [])
  if sfn = ascii "." ∨ sfn = ascii ".." then Program.stop .invalidName
  else if sfn = [] then Program.stop .invalidName
  else do
    modifyDir fun dp ↦
      { dp with
        fnx := storedName (paddedName sfn)
        nsxFlag := if c ≤ 0x20 ∨ c = 0xFF then nsLast else 0 }
    pure rest

/-! ### Going through the table -/

variable (io : DiskIo δ) (pdrv : Drive)

/-- Fills a cluster with zeros, which are also in the window then. -/
def dirClear (clst : UInt32) : VolumeM δ Unit := do
  syncWindow io pdrv
  let fs ← Program.gets fun state ↦ state.fs
  let sect := clst2sect fs clst
  modifyFs fun fs ↦ { fs with winsect := sect, win := fun _ ↦ 0 }
  Program.forRange
    (fun n ↦ onDisk pdrv (diskWrite io (fun _ ↦ 0) (sect + UInt32.ofNat n) 1)) 0 fs.csize.toNat

/-- The loop of `dir_sdi` along the chain. -/
def followChain (io : DiskIo δ) (pdrv : Drive) :
    ℕ → UInt32 → VolumeM δ UInt32
  | 0, clst => pure clst
  | count + 1, clst => do
      let clst ← getFat io pdrv clst
      let fs ← Program.gets fun state ↦ state.fs
      if clst = 0xFFFFFFFF then Program.stop .diskErr
      else if clst < 2 ∨ fs.nFatent ≤ clst then Program.stop .intErr
      else followChain io pdrv count clst

/-- The first cluster of a directory, zero standing for the root directory. -/
def rootOr (fs : FatFs) (sclust : UInt32) : UInt32 := if sclust = 0 then fs.dirbase else sclust

def Dir.startCluster (fs : FatFs) (dp : Dir) : UInt32 := rootOr fs dp.sclust

/-- Sets the object to an offset of its directory. A table that is not a chain has no cluster; no
FATX volume has one. -/
def dirSdi (ofs : UInt32) : DirM δ Unit := do
  Program.stopIf (0x200000 ≤ ofs ∨ ofs % 32 ≠ 0) .intErr
  modifyDir fun dp ↦ { dp with dptr := ofs }
  let state ← Program.gets id
  let fs := state.volume.fs
  let csz := fs.csize.toUInt32 * 512
  let start := state.dp.startCluster fs
  Program.stopIf (start = 0 ∧ fs.nRootdir.toUInt32 ≤ ofs / 64) .intErr
  let clst ← (if start = 0 then pure 0
    else onVolume (followChain io pdrv (ofs / csz).toNat start))
  let sect := if start = 0 then fs.dirbase else clst2sect fs clst
  modifyDir fun dp ↦ { dp with clust := clst, sect := sect }
  Program.stopIf (sect = 0) .intErr
  modifyDir fun dp ↦ { dp with sect := sect + (if start = 0 then ofs else ofs % csz) / 512 }

/-- Adds a cluster to a directory. -/
def stretchTable (clst : UInt32) : VolumeM δ UInt32 := do
  let clst ← createChain io pdrv clst
  Program.stopIf (clst = 0) .denied
  Program.stopIf (clst = 1) .intErr
  Program.stopIf (clst = 0xFFFFFFFF) .diskErr
  dirClear io pdrv clst
  pure clst

/-- The end of the table: no sector is the current one. -/
def endOfTable {α : Type} : DirM δ α := do
  modifyDir fun dp ↦ { dp with sect := 0 }
  Program.stop .noFile

/-- The cluster behind the current one. -/
def dirNextCluster (stretch : Bool) (clust : UInt32) : DirM δ UInt32 := do
  let clst ← onVolume (getFat io pdrv clust)
  let fs ← Program.gets fun state ↦ state.volume.fs
  Program.stopIf (clst ≤ 1) .intErr
  Program.stopIf (clst = 0xFFFFFFFF) .diskErr
  if fs.nFatent ≤ clst then
    if stretch then onVolume (stretchTable io pdrv clust) else endOfTable
  else pure clst

/-- The part of `dir_next` behind the last entry of a sector. A directory has no more than 4096
entries. -/
def dirNextSector (stretch : Bool) (fs : FatFs) (clust ofs : UInt32) :
    DirM δ Unit := do
  modifyDir fun dp ↦ { dp with sect := dp.sect + 1 }
  if clust = 0 then
    if fs.nRootdir.toUInt32 ≤ ofs / 32 then endOfTable else pure ()
  else if 4096 * 64 ≤ ofs then endOfTable
  else if ofs / 512 &&& (fs.csize - 1).toUInt32 = 0 then do
    let clst ← dirNextCluster io pdrv stretch clust
    modifyDir fun dp ↦ { dp with clust := clst, sect := clst2sect fs clst }
  else pure ()

/-- Moves to the next entry. -/
def dirNext (stretch : Bool) : DirM δ Unit := do
  let state ← Program.gets id
  let ofs := state.dp.dptr + 64
  (if ofs % 512 = 0 then dirNextSector io pdrv stretch state.volume.fs state.dp.clust ofs
    else pure ())
  modifyDir fun dp ↦ { dp with dptr := ofs }

/-- Loads the sector of the current entry. -/
def loadEntry : DirM δ Bytes := do
  let sect ← Program.gets fun state ↦ state.dp.sect
  onVolume (moveWindow io pdrv sect)
  Program.gets DirState.entry

/-! ### Finding an entry -/

/-- `toupper` of 'BootLibrary.c'. -/
def toupper (ch : UInt8) : UInt8 := if 0x61 ≤ ch ∧ ch ≤ 0x7A then ch - 0x20 else ch

/-- The length of the name in a directory object, as `dir_find` counts it. -/
def searchedLength (fnx : List UInt8) : ℕ := (fnx.takeWhile fun c ↦ c ≠ 0xFF ∧ c ≠ 0).length

/-- An entry has the name of the directory object. -/
def nameMatches (fnx : List UInt8) (entry : Bytes) : Bool :=
  let c := (entry Dirx.nameLgth).toNat
  entry Dirx.attr &&& 0x08 = 0 ∧ 0 < c ∧ c ≤ fatxFilenameMax ∧ searchedLength fnx = c ∧
    (bytesAt entry Dirx.name c).map toupper = (fnx.take c).map toupper

/-- The loop of `dir_find`, with a bound for its turns. The code for a loop that goes on, here and
below, is one that the functions do not use. -/
def dirFindLoop (io : DiskIo δ) (pdrv : Drive) : ℕ → DirM δ Unit
  | 0 => Program.stop .timeout
  | turns + 1 => do
      let entry ← loadEntry io pdrv
      let c := entry Dirx.nameLgth
      if c = ddem then do
        dirNext io pdrv false
        dirFindLoop io pdrv turns
      else if fatxFilenameMax < c.toNat ∨ c = 0 then Program.stop .noFile
      else do
        let fnx ← Program.gets fun state ↦ state.dp.fnx
        modifyDir fun dp ↦ { dp with attr := entry Dirx.attr &&& 0x3F }
        if nameMatches fnx entry then pure ()
        else do
          dirNext io pdrv false
          dirFindLoop io pdrv turns

/-- Looks for the entry with the name of the directory object. -/
def dirFind : DirM δ Unit := do
  dirSdi io pdrv 0
  dirFindLoop io pdrv 4096

/-! ### New and deleted entries -/

/-- An entry that `dir_alloc` takes. -/
def isFree (entry : Bytes) : Bool :=
  fatxFilenameMax < (entry Dirx.nameLgth).toNat ∨ entry Dirx.name = 0

/-- The loop of `dir_alloc`, with the number of free entries before the current one. -/
def dirAllocLoop (io : DiskIo δ) (pdrv : Drive) (nent : ℕ) :
    ℕ → ℕ → DirM δ Unit
  | 0, _ => Program.stop .timeout
  | turns + 1, n => do
      let entry ← loadEntry io pdrv
      if isFree entry then
        if n + 1 = nent then pure ()
        else do
          dirNext io pdrv true
          dirAllocLoop io pdrv nent turns (n + 1)
      else do
        dirNext io pdrv true
        dirAllocLoop io pdrv nent turns 0

/-- Looks for a number of free entries in a row, and adds clusters to the directory if needed. -/
def dirAlloc (nent : ℕ) : DirM δ Unit :=
  Program.mapError (fun code ↦ if code = .noFile then .denied else code) do
    dirSdi io pdrv 0
    dirAllocLoop io pdrv nent 4096 0

/-- The length of a name that `dir_register` counts; the flag behind the name ends it. -/
def registeredLength (dp : Dir) : ℕ :=
  ((dp.fnx ++ [dp.nsxFlag]).takeWhile fun c ↦ 0x20 ≤ c ∧ c ≠ 0xFF).length

/-- A new entry, with the length of its name and the name. -/
def newEntry (length : UInt8) (fnx : List UInt8) : Bytes :=
  listImage (length :: 0 :: fnx ++ List.replicate 20 0)

/-- Enters the name of the directory object into the directory. -/
def dirRegister : DirM δ Unit := do
  dirAlloc io pdrv 1
  let _ ← loadEntry io pdrv
  let dp ← Program.gets fun state ↦ state.dp
  let nlen := registeredLength dp
  if fatxFilenameMax < nlen then do
    onVolume (storeWindow dp.offset 64 (newEntry 0 dp.fnx))
    Program.stop .invalidName
  else onVolume (storeWindow dp.offset 64 (newEntry (UInt8.ofNat nlen) dp.fnx))

/-- Marks the current entry as deleted. -/
def dirRemove : DirM δ Unit := do
  let _ ← loadEntry io pdrv
  let dp ← Program.gets fun state ↦ state.dp
  onVolume (storeWindow (dp.offset + Dirx.nameLgth) 1 fun _ ↦ ddem)

/-! ### Reading the entries -/

/-- An entry that `dir_read` shows: a file or a directory, or a volume label. -/
def isShown (vol : Bool) (entry : Bytes) : Bool :=
  let c := entry Dirx.nameLgth
  let a := entry Dirx.attr &&& 0x3F
  c ≠ ddem ∧ c ≠ 0x2E ∧ a ≠ 0x0F ∧ decide (a &&& (0xDF : UInt8) = 0x08) = vol

/-- The loop of `dir_read`. It is left with success when `dir_next` finds no sector. -/
def dirReadLoop (io : DiskIo δ) (pdrv : Drive) (vol : Bool) :
    ℕ → DirM δ Unit
  | 0 => Program.stop .timeout
  | turns + 1 => do
      let entry ← loadEntry io pdrv
      Program.stopIf (entry Dirx.nameLgth = 0xFF) .noFile
      modifyDir fun dp ↦ { dp with attr := entry Dirx.attr &&& 0x3F }
      if isShown vol entry then pure ()
      else do
        dirNext io pdrv false
        let sect ← Program.gets fun state ↦ state.dp.sect
        if sect = 0 then pure () else dirReadLoop io pdrv vol turns

/-- Moves on to an entry that is shown, from the current one on. -/
def dirRead (vol : Bool) : DirM δ Unit :=
  Program.modifyOnError (fun state ↦ { state with dp := { state.dp with sect := 0 } }) do
    let sect ← Program.gets fun state ↦ state.dp.sect
    Program.stopIf (sect = 0) .noFile
    dirReadLoop io pdrv vol 4096

/-- The name that `get_fileinfo` copies from the current entry. It is read as signed characters, of
which none equals 0xFF. -/
def entryName (state : DirState δ) : List UInt8 :=
  if state.dp.sect = 0 then []
  else
    let namelength := state.entry Dirx.nameLgth
    let realLength := if namelength = ddem then fatxFilenameMax else namelength.toNat
    cString (bytesAt state.entry Dirx.name realLength)

/-- Goes on if nothing is found, and stops with a code if something is. -/
def ifNoFile (found : FResult) (program : DirM δ Unit) :
    DirM δ Unit := fun state ↦
  match program state with
  | (.ok _, state) => (.error found, state)
  | (.error .noFile, state) => (.ok (), state)
  | (.error code, state) => (.error code, state)

/-- Goes on after the end of the directory. -/
def ignoreNoFile (program : DirM δ Unit) :
    DirM δ Unit := fun state ↦
  match program state with
  | (.error .noFile, state) => (.ok (), state)
  | result => result

/-- Reads the name of the next entry, which is empty at the end of the directory. -/
def fReaddir : DirM δ (List UInt8) := do
  ignoreNoFile (dirRead io pdrv false)
  let fname ← Program.gets entryName
  ignoreNoFile (dirNext io pdrv false)
  pure fname

/-- The names of a directory, read one after the other until an empty name. -/
def readNames (io : DiskIo δ) (pdrv : Drive) : ℕ → DirM δ (List (List UInt8))
  | 0 => Program.stop .timeout
  | turns + 1 => do
      let fname ← fReaddir io pdrv
      if fname = [] then pure []
      else do
        let names ← readNames io pdrv turns
        pure (fname :: names)

/-- All names of a directory. -/
def listDirectory : DirM δ (List (List UInt8)) := do
  dirSdi io pdrv 0
  readNames io pdrv 4097

end XBlast.Fatx
