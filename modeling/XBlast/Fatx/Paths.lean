import XBlast.Fatx.Directory

/-!
# Making and removing directories

`follow_path` goes from a directory to the one that the last segment of a path belongs to.
`f_mkdir` enters a new directory there, with one cluster of zeros, and `f_unlink` deletes an entry
and gives its clusters back. A directory may only be deleted if `dir_read` finds nothing in it.

The functions are modelled on a volume that is mounted, without the drive in front of the path. The
current directory and the objects that are open are not changed by them, so they are parameters
here. `create_name` sets no flag for dot entries on a FATX volume, and the branches that test for it
are left out.
-/

set_option autoImplicit false
set_option relaxedAutoImplicit false

namespace XBlast.Fatx

open Foundation Disk

variable {δ : Type}

/-- `NS_NONAME`, the flag of a path without segments. -/
def nsNoname : UInt8 := 0x80

/-- `AM_RDO`, the attribute of an object that is read-only. -/
def amRdo : UInt8 := 0x01

/-- `AM_DIR`, the attribute of a directory. -/
def amDir : UInt8 := 0x10

/-- The first cluster of the object that an entry is for. -/
def ldClust (entry : Bytes) : UInt32 := littleEndian32 entry Dirx.fstClus

/-- `GET_FATTIME` and `FATX_TOFATX_TIMESTAMP`: the first of May 2018, counted from the year 2000. -/
def fatxTime : UInt32 :=
  ((2018 - 1980 : UInt32) <<< 25 ||| (5 : UInt32) <<< 21 ||| (1 : UInt32) <<< 16) -
    (20 : UInt32) <<< 25

/-! ### Paths -/

/-- The loop of `follow_path` over the segments, with a bound for its turns. -/
def followLoop (io : DiskIo δ) (pdrv : Drive) : ℕ → List UInt8 → DirM δ Unit
  | 0, _ => Program.stop .timeout
  | turns + 1, path => do
      let rest ← createName path
      let ns ← Program.gets fun state ↦ state.dp.nsxFlag
      Program.mapError (fun code ↦ if code = .noFile ∧ ns &&& nsLast = 0 then .noPath else code)
        (dirFind io pdrv)
      if ns &&& nsLast ≠ 0 then pure ()
      else do
        let state ← Program.gets id
        if state.dp.attr &&& amDir = 0 then Program.stop .noPath
        else do
          modifyDir fun dp ↦ { dp with sclust := ldClust state.entry }
          followLoop io pdrv turns rest

/-- A path that names no object but the directory it starts from. -/
def isOrigin (path : List UInt8) : Bool := path.head?.all fun c ↦ c < 0x20

/-- Where a path starts: in the root directory after a separator, else in the current one. -/
def pathStart (cdir : UInt32) (path : List UInt8) : UInt32 :=
  if path.head?.any isSeparator then 0 else cdir

variable (io : DiskIo δ) (pdrv : Drive)

/-- Goes to the directory of the last segment of a path and looks for an entry with its name. -/
def followPath (cdir : UInt32) (path : List UInt8) : DirM δ Unit := do
  modifyDir fun dp ↦ { dp with sclust := pathStart cdir path }
  let path := path.dropWhile isSeparator
  if isOrigin path then do
    modifyDir fun dp ↦ { dp with nsxFlag := nsNoname }
    dirSdi io pdrv 0
  else followLoop io pdrv (path.length + 1) path

/-! ### Giving clusters back -/

/-- Notes that a cluster is free again. -/
def FatFs.giveCluster (fs : FatFs) : FatFs :=
  if fs.freeClst < fs.nFatent - 2 then
    { fs with freeClst := fs.freeClst + 1, fsiFlag := fs.fsiFlag ||| 1 }
  else fs

/-- The loop of `remove_chain` along the chain. -/
def removeChainLoop (io : DiskIo δ) (pdrv : Drive) :
    ℕ → UInt32 → VolumeM δ Unit
  | 0, _ => Program.stop .timeout
  | turns + 1, clst => do
      let nxt ← getFat io pdrv clst
      if nxt = 0 then pure ()
      else do
        Program.stopIf (nxt = 1) .intErr
        Program.stopIf (nxt = 0xFFFFFFFF) .diskErr
        putFat io pdrv clst 0
        modifyFs FatFs.giveCluster
        let fs ← Program.gets fun state ↦ state.fs
        if nxt < fs.nFatent then removeChainLoop io pdrv turns nxt else pure ()

/-- Gives the clusters of a chain back from `clst` on. The chain ends with `pclst` then, or is gone
if that is zero. Each turn of the loop takes an entry of the FAT away that is not free. -/
def removeChain (clst pclst : UInt32) : VolumeM δ Unit := do
  let fs ← Program.gets fun state ↦ state.fs
  Program.stopIf (clst < 2 ∨ fs.nFatent ≤ clst) .intErr
  (if pclst ≠ 0 then putFat io pdrv pclst 0xFFFFFFFF else pure ())
  removeChainLoop io pdrv (fs.nFatent.toNat + 1) clst

/-- Writes the window and what the disk holds back. -/
def syncFs : VolumeM δ Unit := do
  syncWindow io pdrv
  onDisk pdrv (diskSync io)

/-! ### Directories -/

/-- The table and the entry of a new directory with the cluster `dcl`. -/
def makeTable (dcl : UInt32) : DirM δ Unit := do
  Program.stopIf (dcl = 0) .denied
  Program.stopIf (dcl = 1) .intErr
  Program.stopIf (dcl = 0xFFFFFFFF) .diskErr
  onVolume (syncWindow io pdrv)
  onVolume (dirClear io pdrv dcl)
  dirRegister io pdrv

/-- Makes a directory. Its cluster is given back if it cannot be entered. -/
def fMkdir (cdir : UInt32) (path : List UInt8) : DirM δ Unit := do
  ifNoFile .exist (followPath io pdrv cdir path)
  let dcl ← onVolume (createChain io pdrv 0)
  Program.modifyOnError (fun state ↦ (onVolume (removeChain io pdrv dcl 0) state).2)
    (makeTable io pdrv dcl)
  let dp ← Program.gets fun state ↦ state.dp
  onVolume (storeWindow (dp.offset + Dirx.modTime) 4 (byteOf32 fatxTime))
  onVolume (storeWindow (dp.offset + Dirx.fstClus) 4 (byteOf32 dcl))
  onVolume (storeWindow (dp.offset + Dirx.attr) 1 fun _ ↦ amDir)
  onVolume (syncFs io pdrv)

/-- Runs a program with a directory object of its own. -/
def onDir (dir : Dir) (program : DirM δ Unit) :
    DirM δ Unit :=
  program.onPart (fun state ↦ { state with dp := dir })
    (fun inner state ↦ { inner with dp := state.dp })

/-- `chk_lock` before an object is deleted. The open objects of the volume are known by the
directory and the offset of their entries. -/
def chkLock (files : List (UInt32 × UInt32)) : DirM δ Unit := do
  let dp ← Program.gets fun state ↦ state.dp
  Program.stopIf ((dp.sclust, dp.dptr) ∈ files) .locked

/-- Stops if a directory with this cluster is not empty. Of the new object only the cluster is read
before it is set. -/
def expectEmpty (dp : Dir) (dclst : UInt32) : DirM δ Unit :=
  onDir { dp with sclust := dclst } do
    dirSdi io pdrv 0
    ifNoFile .denied (dirRead io pdrv false)

/-- Deletes a file or a directory. -/
def fUnlink (cdir : UInt32) (files : List (UInt32 × UInt32)) (path : List UInt8) :
    DirM δ Unit := do
  followPath io pdrv cdir path
  chkLock files
  let state ← Program.gets id
  Program.stopIf (state.dp.nsxFlag &&& nsNoname ≠ 0) .invalidName
  Program.stopIf (state.dp.attr &&& amRdo ≠ 0) .denied
  let dclst := ldClust state.entry
  (if state.dp.attr &&& amDir ≠ 0 then
    if dclst = cdir then Program.stop .denied else expectEmpty io pdrv state.dp dclst
  else pure ())
  dirRemove io pdrv
  (if dclst ≠ 0 then onVolume (removeChain io pdrv dclst 0) else pure ())
  onVolume (syncFs io pdrv)

end XBlast.Fatx
