import Gd32Firmware.FatStore

/-!
# Files

The functions of `libraries/fatfs/ff.c` on an open file. A file object has a buffer of one
sector, which is written back when another sector is wanted, and whole sectors are transferred
directly between the drive and the caller's memory. The file system is configured without a lock
on files, fast seek and the tiny buffer; what the functions do under the lock of the volume is
modelled, not the lock.

`Handle.byte` is a byte of the file as the object sees it, through the buffer, and `Handle.Fits`
the invariant of the object.
-/

namespace Gd32Firmware

open Program FatGeometry

variable {σ : Type} (d : Storage σ)

/-! ## File objects -/

/-- `FIL`, with the flags one by one. -/
structure Fil where
  /-- `obj.fs` is not null. -/
  opened : Bool
  sclust : UInt32
  objsize : UInt32
  faRead : Bool
  faWrite : Bool
  faModified : Bool
  faDirty : Bool
  err : FResult
  fptr : UInt32
  clust : UInt32
  sect : UInt32
  dirSect : UInt32
  /-- Where `dir_ptr` points in the window. -/
  dirPtr : ℕ
  buf : Sector

/-- A file object and its volume. -/
structure Handle (σ : Type) where
  vol : Volume σ
  fil : Fil

/-- A function on the volume. -/
def onVol {α : Type} (m : Program (Volume σ) α) : Program (Handle σ) α :=
  zoom Handle.vol (fun v h => { h with vol := v }) m

def getFil : Program (Handle σ) Fil := act fun h => (h.fil, h)

def modifyFil (f : Fil → Fil) : Program (Handle σ) Unit :=
  act fun h => ((), { h with fil := f h.fil })

def validate : Program (Handle σ) FResult :=
  act fun h =>
    (if h.fil.opened ∧ h.vol.fs.fsType ≠ .blank ∧ d.diskStatus h.vol.disk &&& staNoinit = 0
      then .frOk else .frInvalidObject, h)

/-- What every function on a file begins with. -/
def checkFile : Program (Handle σ) FResult := do
  let res ← validate d
  if res ≠ .frOk then pure res else pure (← getFil).err

/-- `ABORT`, without the return. -/
def abort (res : FResult) : Program (Handle σ) Unit :=
  modifyFil fun f => { f with err := res }

/-- Write-back of the buffer, if it is dirty. -/
def writeBack : Program (Handle σ) FResult := do
  let f ← getFil
  if f.faDirty then
    if (← onVol (diskWrites d f.sect 1 fun _ => f.buf)) = .resOk then
      modifyFil fun f => { f with faDirty := false }
      pure .frOk
    else pure .frDiskErr
  else pure .frOk

/-- The sector in its cluster at which the pointer is. -/
def csect (fs : FatFs) (fptr : UInt32) : UInt32 :=
  fptr / 512 &&& (fs.csize.toUInt32 - 1)

/-- The number of whole sectors to transfer, clipped at the cluster boundary. -/
def clipSectors (fs : FatFs) (csect cc : UInt32) : UInt32 :=
  if fs.csize.toUInt32 < csect + cc then fs.csize.toUInt32 - csect else cc

/-! ## Reading -/

/-- On a cluster boundary `f_read` follows the chain. -/
def readClust (fptr : UInt32) : Program (Handle σ) FResult := do
  let f ← getFil
  let clst ← if fptr = 0 then pure f.sclust else onVol (getFat d f.clust)
  if clst < 2 then pure .frIntErr
  else if clst = diskError then pure .frDiskErr
  else
    modifyFil fun f => { f with clust := clst }
    pure .frOk

/-- The bytes of so many sectors. -/
def sectorBytes (data : ℕ → Sector) (n : ℕ) : List UInt8 :=
  (List.range (512 * n)).map fun i => (data (i / 512)).at i

/-- On a sector boundary `f_read` reads whole sectors, if as many bytes are wanted, or fills the
buffer. -/
def readSect (btr csect : UInt32) : Program (Handle σ) (Except FResult (Option (List UInt8))) := do
  let fs ← onVol getFs
  let f ← getFil
  let sect := clst2sect fs.toFatGeometry f.clust
  if sect = 0 then pure (.error .frIntErr)
  else
    let sect := sect + csect
    let cc := btr / 512
    if 0 < cc then
      let cc := clipSectors fs csect cc
      let (status, data) ← onVol (diskReads d sect cc.toNat)
      if status = .resOk then
        -- a dirty sector is newer in the buffer
        if f.faDirty ∧ f.sect - sect < cc then
          pure (.ok (some
            (sectorBytes (Function.update data (f.sect - sect).toNat f.buf) cc.toNat)))
        else pure (.ok (some (sectorBytes data cc.toNat)))
      else pure (.error .frDiskErr)
    else if f.sect ≠ sect then
      let res ← writeBack d
      if res = .frOk then
        let (status, data) ← onVol (diskReads d sect 1)
        modifyFil fun f => { f with buf := data 0 }
        if status = .resOk then
          modifyFil fun f => { f with sect := sect }
          pure (.ok none)
        else pure (.error .frDiskErr)
      else pure (.error res)
    else pure (.ok none)

/-- What `f_read` does on a cluster boundary. -/
def readStart : Program (Handle σ) FResult := do
  let fs ← onVol getFs
  let fptr := (← getFil).fptr
  if fptr % 512 = 0 ∧ csect fs fptr = 0 then readClust d fptr else pure .frOk

/-- What `f_read` does on a sector boundary. -/
def readFill (btr : UInt32) : Program (Handle σ) (Except FResult (Option (List UInt8))) := do
  let fs ← onVol getFs
  let fptr := (← getFil).fptr
  if fptr % 512 = 0 then readSect d btr (csect fs fptr) else pure (.ok none)

/-- The bytes that `f_read` takes from the buffer. -/
def readBuffer (btr : UInt32) : Program (Handle σ) (List UInt8) := do
  let f ← getFil
  let rcnt := if btr < 512 - f.fptr % 512 then btr else 512 - f.fptr % 512
  pure ((List.range rcnt.toNat).map fun i => f.buf.at ((f.fptr % 512).toNat + i))

/-- The bytes of one round of the loop. -/
def readNext (btr : UInt32) : Program (Handle σ) (Except FResult (List UInt8)) := do
  let res ← readStart d
  if res = .frOk then
    match ← readFill d btr with
    | .error res => pure (.error res)
    | .ok (some data) => pure (.ok data)
    | .ok none => do pure (.ok (← readBuffer btr))
  else pure (.error res)

/-- The loop of `f_read`, with the bytes read so far and the number of those to read. -/
def readBody : List UInt8 × UInt32 →
    Program (Handle σ) ((List UInt8 × UInt32) ⊕ (FResult × List UInt8))
  | (out, btr) =>
    if btr = 0 then pure (.inr (.frOk, out))
    else do
      match ← readNext d btr with
      | .error res => do
        abort res
        pure (.inr (res, out))
      | .ok data => do
        let rcnt := UInt32.ofNat data.length
        modifyFil fun f => { f with fptr := f.fptr + rcnt }
        pure (.inl (out ++ data, btr - rcnt))

/-- `f_read`, with the bytes that it counts in `*br`. -/
def fRead (btr : UInt32) : Program (Handle σ) (FResult × List UInt8) := do
  let res ← checkFile d
  if res ≠ .frOk then pure (res, [])
  else
    let f ← getFil
    if f.faRead then
      let remain := f.objsize - f.fptr
      let btr := if remain < btr then remain else btr
      iterate (readBody d) (btr.toNat + 1) ([], btr)
    else pure (.frDenied, [])

/-! ## Writing -/

/-- The number of the cluster of the pointer, which `f_write` looks up or takes. -/
def writeCluster (fptr : UInt32) : Program (Handle σ) UInt32 := do
  let f ← getFil
  if fptr = 0 then
    if f.sclust = 0 then onVol (createChain d 0) else pure f.sclust
  else onVol (createChain d f.clust)

/-- On a cluster boundary `f_write` follows the chain or makes it longer. It is false if the
disk is full. -/
def writeClust (fptr : UInt32) : Program (Handle σ) (Except FResult Bool) := do
  let clst ← writeCluster d fptr
  if clst = 0 then pure (.ok false)
  else if clst = 1 then pure (.error .frIntErr)
  else if clst = diskError then pure (.error .frDiskErr)
  else
    modifyFil fun f => { f with clust := clst, sclust := if f.sclust = 0 then clst else f.sclust }
    pure (.ok true)

/-- Sectors of the caller's memory. -/
def chunks (buff : ℕ → UInt8) (ofs : ℕ) (i : ℕ) : Sector :=
  fun j => buff (ofs + 512 * i + j)

/-- On a sector boundary `f_write` writes whole sectors, if there are as many bytes, or has the
sector in the buffer. It answers the number of bytes written. -/
def writeSect (buff : ℕ → UInt8) (bw btw csect : UInt32) :
    Program (Handle σ) (Except FResult UInt32) := do
  let fs ← onVol getFs
  let f ← getFil
  let sect := clst2sect fs.toFatGeometry f.clust
  if sect = 0 then pure (.error .frIntErr)
  else
    let sect := sect + csect
    let cc := btw / 512
    if 0 < cc then
      let cc := clipSectors fs csect cc
      if (← onVol (diskWrites d sect cc.toNat (chunks buff bw.toNat))) = .resOk then
        if f.sect - sect < cc then
          modifyFil fun f =>
            { f with buf := chunks buff bw.toNat (f.sect - sect).toNat, faDirty := false }
          pure (.ok (512 * cc))
        else pure (.ok (512 * cc))
      else pure (.error .frDiskErr)
    else if f.sect ≠ sect ∧ f.fptr < f.objsize then
      let (status, data) ← onVol (diskReads d sect 1)
      modifyFil fun f => { f with buf := data 0 }
      if status = .resOk then
        modifyFil fun f => { f with sect := sect }
        pure (.ok 0)
      else pure (.error .frDiskErr)
    else
      modifyFil fun f => { f with sect := sect }
      pure (.ok 0)

/-- What `f_write` does on a cluster boundary. -/
def writeStart : Program (Handle σ) (Except FResult Bool) := do
  let fs ← onVol getFs
  let fptr := (← getFil).fptr
  if fptr % 512 = 0 ∧ csect fs fptr = 0 then writeClust d fptr else pure (.ok true)

/-- What `f_write` does on a sector boundary. -/
def writeFill (buff : ℕ → UInt8) (bw btw : UInt32) :
    Program (Handle σ) (Except FResult UInt32) := do
  let fs ← onVol getFs
  let fptr := (← getFil).fptr
  if fptr % 512 = 0 then
    let res ← writeBack d
    if res = .frOk then writeSect d buff bw btw (csect fs fptr) else pure (.error res)
  else pure (.ok 0)

/-- The bytes that `f_write` leaves in the buffer. -/
def writeBuffer (buff : ℕ → UInt8) (bw btw : UInt32) : Program (Handle σ) UInt32 := do
  let fptr := (← getFil).fptr
  let ofs := (fptr % 512).toNat
  let wcnt := if btw < 512 - fptr % 512 then btw else 512 - fptr % 512
  modifyFil fun f =>
    { f with
      buf := fun j =>
        if ofs ≤ j.val ∧ j.val < ofs + wcnt.toNat then buff (bw.toNat + (j.val - ofs)) else f.buf j
      faDirty := true }
  pure wcnt

/-- The pointer behind so many bytes that have been written, and the size of the file. -/
def Fil.advance (f : Fil) (wcnt : UInt32) : Fil :=
  { f with
    fptr := f.fptr + wcnt
    objsize := if f.objsize < f.fptr + wcnt then f.fptr + wcnt else f.objsize }

/-- The end of `f_write`. -/
def writeEnd (bw : UInt32) : Program (Handle σ) (FResult × UInt32) := do
  modifyFil fun f => { f with faModified := true }
  pure (.frOk, bw)

/-- One round of the loop of `f_write` : the number of bytes written, or none if the disk is
full. -/
def writeNext (buff : ℕ → UInt8) (bw btw : UInt32) :
    Program (Handle σ) (Except FResult (Option UInt32)) := do
  match ← writeStart d with
  | .error res => pure (.error res)
  | .ok false => pure (.ok none)
  | .ok true => do
    match ← writeFill d buff bw btw with
    | .error res => pure (.error res)
    | .ok wcnt =>
      if 0 < wcnt then pure (.ok (some wcnt)) else do pure (.ok (some (← writeBuffer buff bw btw)))

/-- The loop of `f_write`, with the numbers of the bytes written and of those to write. -/
def writeBody (buff : ℕ → UInt8) : UInt32 × UInt32 →
    Program (Handle σ) ((UInt32 × UInt32) ⊕ (FResult × UInt32))
  | (bw, btw) =>
    if btw = 0 then do pure (.inr (← writeEnd bw))
    else do
      match ← writeNext d buff bw btw with
      | .error res => do
        abort res
        pure (.inr (res, bw))
      | .ok none => do pure (.inr (← writeEnd bw))
      | .ok (some wcnt) => do
        modifyFil fun f => f.advance wcnt
        pure (.inl (bw + wcnt, btw - wcnt))

/-- `f_write`, with the number of bytes that it counts in `*bw`. -/
def fWrite (buff : ℕ → UInt8) (btw : UInt32) : Program (Handle σ) (FResult × UInt32) := do
  let res ← checkFile d
  if res ≠ .frOk then pure (res, 0)
  else
    let f ← getFil
    if f.faWrite then
      -- a file does not reach 4 GiB
      let btw := if f.fptr + btw < f.fptr then 0xFFFFFFFF - f.fptr else btw
      iterate (writeBody d buff) (btw.toNat + 1) (0, btw)
    else pure (.frDenied, 0)

end Gd32Firmware
