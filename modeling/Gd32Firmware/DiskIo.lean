import Gd32Firmware.SdTransfer

/-!
# The disk functions of FatFs

The functions of `libraries/fatfs/diskio.c`. Only the drive `SD_CARD` is implemented. For some
of the other drives `disk_read` and `disk_status` return a variable that was never written,
which is `none` here.
-/

namespace Gd32Firmware

open Program

/-! ## The state of a drive -/

/-- `STA_NOINIT`. -/
def staNoinit : UInt8 := 0x01

def diskStatus (pdrv : UInt8) : Option UInt8 :=
  if pdrv = 0 then some 0
  else if pdrv = 1 then none
  else if pdrv = 2 then some 0
  else some staNoinit

/-- `disk_initialize`. The case of `SPI_FLASH` falls through to the one of `INTER_FLASH`. -/
def diskInitialize (pdrv : UInt8) : UInt8 :=
  if pdrv = 0 then 0
  else if pdrv = 1 ∨ pdrv = 2 then 0
  else staNoinit

/-! ## Sectors -/

/-- `DRESULT`. -/
inductive DResult where
  | resOk
  | resError
  | resWrprt
  | resNotrdy
  | resParerr
  deriving DecidableEq

/-- What both functions make of the status of the driver. -/
def diskResult (status : SdError) : DResult :=
  if status = .ok then .resOk else .resError

/-- The address that both functions pass for a sector. -/
def sectorAddress (drv : Driver) (sector : UInt32) : UInt32 :=
  sector * drv.sdCardinfo.cardBlocksize

/-- `disk_read` of the drive `SD_CARD`. -/
def diskReadSd (buff : Option ℕ) (sector count : UInt32) : Program World SdError := do
  let drv ← getDrv
  if 1 < count then
    sdMultiblocksRead buff (sectorAddress drv sector) drv.sdCardinfo.cardBlocksize.toUInt16
      count
  else
    sdBlockRead buff (sectorAddress drv sector) drv.sdCardinfo.cardBlocksize.toUInt16

def diskRead (pdrv : UInt8) (buff : Option ℕ) (sector count : UInt32) :
    Program World (Option DResult) :=
  if pdrv = 0 then do
    let status ← diskReadSd buff sector count
    pure (some (diskResult status))
  else if pdrv = 1 ∨ pdrv = 2 then pure none
  else pure (some .resParerr)

/-- `disk_write` of the drive `SD_CARD`. -/
def diskWriteSd (buff : Option ℕ) (sector count : UInt32) : Program World SdError := do
  let drv ← getDrv
  if 1 < count then
    sdMultiblocksWrite buff (sectorAddress drv sector) drv.sdCardinfo.cardBlocksize.toUInt16
      count
  else
    sdBlockWrite buff (sectorAddress drv sector) drv.sdCardinfo.cardBlocksize.toUInt16

def diskWrite (pdrv : UInt8) (buff : Option ℕ) (sector count : UInt32) :
    Program World DResult :=
  if pdrv = 0 then do
    let status ← diskWriteSd buff sector count
    pure (diskResult status)
  else if pdrv = 1 ∨ pdrv = 2 then pure .resOk
  else pure .resParerr

/-! ## Control -/

/-- What `disk_ioctl` writes to its buffer. -/
inductive IoctlData where
  | nothing
  | dword (value : UInt32)
  | word (value : UInt16)
  deriving DecidableEq

/-- `disk_ioctl`. There is no result if it divides by zero. -/
def diskIoctl (pdrv cmd : UInt8) : Program World (Option (DResult × IoctlData)) :=
  if pdrv = 0 then do
    let sdCardinfo := (← getDrv).sdCardinfo
    -- `GET_SECTOR_COUNT`, `GET_SECTOR_SIZE` and `GET_BLOCK_SIZE`
    if cmd = 1 then
      if sdCardinfo.cardBlocksize = 0 then pure none
      else pure (some (.resOk, .dword (sdCardinfo.cardCapacity / sdCardinfo.cardBlocksize)))
    else if cmd = 2 then pure (some (.resOk, .word sdCardinfo.cardBlocksize.toUInt16))
    else if cmd = 3 then pure (some (.resOk, .dword 1))
    else pure (some (.resOk, .nothing))
  else if pdrv = 1 ∨ pdrv = 2 then pure (some (.resOk, .nothing))
  else pure (some (.resParerr, .nothing))

end Gd32Firmware
