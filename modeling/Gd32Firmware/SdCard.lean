import Mathlib.Data.UInt
import Mathlib.Data.Fin.VecNotation
import Mathlib.Tactic.Common

/-!
# The SD card as the driver sees it

The error codes and card types of `user/sys/inc/sdcard.h`, the file-level variables of
`user/sys/sdcard.c` (`Driver`), and the two functions that only compute with them :
`sd_card_information_get` decodes the CID and CSD registers into `sd_card_info_struct`,
`sd_card_capacity_get` computes the capacity from the CSD.

A register of 128 bits is held in four words, the most significant one first.
-/

namespace Gd32Firmware

/-! ## Codes -/

/-- `sd_error_enum`. -/
inductive SdError where
  | outOfRange | addressError | blockLenError | eraseSeqError | eraseParam | wpViolation
  | lockUnlockFailed | comCrcError | illegalCommand | cardEccFailed | ccError
  | generalUnknownError | csdOverwrite | wpEraseSkip | cardEccDisabled | eraseReset
  | akeSeqError | cmdCrcError | dataCrcError | cmdRespTimeout | dataTimeout | txUnderrunError
  | rxOverrunError | startBitError | voltrangeInvalid | parameterInvalid | operationImproper
  | functionUnsupported | error | ok
  deriving DecidableEq

/-- `sdio_card_type_enum`. -/
inductive CardType where
  | stdCapacitySdCardV11
  | stdCapacitySdCardV20
  | highCapacitySdCard
  | secureDigitalIoCard
  | secureDigitalIoComboCard
  | multimediaCard
  | highCapacityMultimediaCard
  | highSpeedMultimediaCard
  deriving DecidableEq

/-- The three types for which the driver sends the commands of an SD memory card. -/
def CardType.IsSdMemory (t : CardType) : Prop :=
  t = .stdCapacitySdCardV11 ∨ t = .stdCapacitySdCardV20 ∨ t = .highCapacitySdCard

instance (t : CardType) : Decidable t.IsSdMemory :=
  inferInstanceAs (Decidable (_ ∨ _ ∨ _))

/-- `SD_DMA_MODE`. -/
def sdDmaMode : UInt32 := 0

/-- `SD_POLLING_MODE`. -/
def sdPollingMode : UInt32 := 1

/-- A register of 128 bits has words. -/
instance neZeroFour : NeZero 4 := ⟨by decide⟩

/-- So has one of 64 bits. -/
instance neZeroTwo : NeZero 2 := ⟨by decide⟩

/-! ## The decoded registers -/

/-- `sd_cid_struct`. -/
structure SdCidStruct where
  mid : UInt8
  oid : UInt16
  pnm0 : UInt32
  pnm1 : UInt8
  prv : UInt8
  psn : UInt32
  mdt : UInt16
  cidCrc : UInt8

/-- `sd_csd_struct`. -/
structure SdCsdStruct where
  csdStruct : UInt8
  taac : UInt8
  nsac : UInt8
  tranSpeed : UInt8
  ccc : UInt16
  readBlLen : UInt8
  readBlPartial : UInt8
  writeBlkMisalign : UInt8
  readBlkMisalign : UInt8
  dspImp : UInt8
  cSize : UInt32
  vddRCurrMin : UInt8
  vddRCurrMax : UInt8
  vddWCurrMin : UInt8
  vddWCurrMax : UInt8
  cSizeMult : UInt8
  eraseBlkEn : UInt8
  sectorSize : UInt8
  wpGrpSize : UInt8
  wpGrpEnable : UInt8
  r2wFactor : UInt8
  writeBlLen : UInt8
  writeBlPartial : UInt8
  fileFormatGrp : UInt8
  copyFlag : UInt8
  permWriteProtect : UInt8
  tmpWriteProtect : UInt8
  fileFormat : UInt8
  csdCrc : UInt8

/-- `sd_card_info_struct`. -/
structure SdCardInfo where
  cardCid : SdCidStruct
  cardCsd : SdCsdStruct
  cardType : CardType
  cardCapacity : UInt32
  cardBlocksize : UInt32
  cardRca : UInt16

/-- The variables of `sdcard.c`, and `sd_cardinfo` of `bsp_sd.c`. -/
structure Driver where
  cardtype : CardType
  sdCsd : Fin 4 → UInt32
  sdCid : Fin 4 → UInt32
  sdRca : UInt16
  sdScr : Fin 2 → UInt32
  transmode : UInt32
  totalnumberBytes : UInt32
  stopcondition : UInt32
  transerror : SdError
  transend : UInt32
  numberBytes : UInt32
  sdCardinfo : SdCardInfo

/-- The variables as the program starts. -/
def Driver.initial : Driver where
  cardtype := .stdCapacitySdCardV11
  sdCsd := fun _ => 0
  sdCid := fun _ => 0
  sdRca := 0
  sdScr := fun _ => 0
  transmode := sdPollingMode
  totalnumberBytes := 0
  stopcondition := 0
  transerror := .ok
  transend := 0
  numberBytes := 0
  sdCardinfo :=
    { cardCid := ⟨0, 0, 0, 0, 0, 0, 0, 0⟩
      cardCsd :=
        ⟨0, 0, 0, 0, 0, 0, 0, 0, 0, 0, 0, 0, 0, 0, 0, 0, 0, 0, 0, 0, 0, 0, 0, 0, 0, 0, 0, 0, 0⟩
      cardType := .stdCapacitySdCardV11
      cardCapacity := 0
      cardBlocksize := 0
      cardRca := 0 }

/-! ## Decoding -/

/-- The byte under `SD_MASK_24_31BITS`. -/
def byte3 (w : UInt32) : UInt8 := ((w &&& 0xFF000000) >>> 24).toUInt8

/-- The byte under `SD_MASK_16_23BITS`. -/
def byte2 (w : UInt32) : UInt8 := ((w &&& 0x00FF0000) >>> 16).toUInt8

/-- The byte under `SD_MASK_8_15BITS`. -/
def byte1 (w : UInt32) : UInt8 := ((w &&& 0x0000FF00) >>> 8).toUInt8

/-- The byte under `SD_MASK_0_7BITS`. -/
def byte0 (w : UInt32) : UInt8 := (w &&& 0x000000FF).toUInt8

/-- The part of `sd_card_information_get` that decodes the CID. -/
def cidDecode (sdCid : Fin 4 → UInt32) : SdCidStruct where
  mid := byte3 (sdCid 0)
  oid := (byte2 (sdCid 0)).toUInt16 <<< 8 ||| (byte1 (sdCid 0)).toUInt16
  pnm0 := (byte0 (sdCid 0)).toUInt32 <<< 24 ||| (byte3 (sdCid 1)).toUInt32 <<< 16 |||
    (byte2 (sdCid 1)).toUInt32 <<< 8 ||| (byte1 (sdCid 1)).toUInt32
  pnm1 := byte0 (sdCid 1)
  prv := byte3 (sdCid 2)
  psn := (byte2 (sdCid 2)).toUInt32 <<< 24 ||| (byte1 (sdCid 2)).toUInt32 <<< 16 |||
    (byte0 (sdCid 2)).toUInt32 ||| (byte3 (sdCid 3)).toUInt32
  mdt := (byte2 (sdCid 3) &&& 0x0F).toUInt16 <<< 8 ||| (byte1 (sdCid 3)).toUInt16
  cidCrc := (byte0 (sdCid 3) &&& 0xFE) >>> 1

/-- The bytes 0 to 6 of the CSD. -/
def csdDecodeHead (sdCsd : Fin 4 → UInt32) (csd : SdCsdStruct) : SdCsdStruct :=
  { csd with
    csdStruct := (byte3 (sdCsd 0) &&& 0xC0) >>> 6
    taac := byte2 (sdCsd 0)
    nsac := byte1 (sdCsd 0)
    tranSpeed := byte0 (sdCsd 0)
    ccc := (byte3 (sdCsd 1)).toUInt16 <<< 4 ||| (byte2 (sdCsd 1) &&& 0xF0).toUInt16 >>> 4
    readBlLen := byte2 (sdCsd 1) &&& 0x0F
    readBlPartial := (byte1 (sdCsd 1) &&& 0x80) >>> 7
    writeBlkMisalign := (byte1 (sdCsd 1) &&& 0x40) >>> 6
    readBlkMisalign := (byte1 (sdCsd 1) &&& 0x20) >>> 5
    dspImp := (byte1 (sdCsd 1) &&& 0x10) >>> 4 }

/-- The branch for CSD version 1.0. -/
def csdDecodeV1 (sdCsd : Fin 4 → UInt32) (csd : SdCsdStruct) : SdCsdStruct :=
  { csd with
    cSize := (byte1 (sdCsd 1) &&& 0x03).toUInt32 <<< 10 ||| (byte0 (sdCsd 1)).toUInt32 <<< 2 |||
      (byte3 (sdCsd 2) &&& 0xC0).toUInt32 >>> 6
    vddRCurrMin := (byte3 (sdCsd 2) &&& 0x38) >>> 3
    vddRCurrMax := byte3 (sdCsd 2) &&& 0x07
    vddWCurrMin := (byte2 (sdCsd 2) &&& 0xE0) >>> 5
    vddWCurrMax := (byte2 (sdCsd 2) &&& 0x1C) >>> 2
    cSizeMult := (byte2 (sdCsd 2) &&& 0x03) <<< 1 ||| (byte1 (sdCsd 2) &&& 0x80) >>> 7 }

/-- The branch for CSD version 2.0. -/
def csdDecodeV2 (sdCsd : Fin 4 → UInt32) (csd : SdCsdStruct) : SdCsdStruct :=
  { csd with
    cSize := (byte0 (sdCsd 1) &&& 0x3F).toUInt32 <<< 16 ||| (byte3 (sdCsd 2)).toUInt32 <<< 8 |||
      (byte2 (sdCsd 2)).toUInt32 }

/-- The rest of the CSD, from what `tempbyte` holds on. -/
def csdDecodeTail (sdCsd : Fin 4 → UInt32) (tempbyte : UInt8) (csd : SdCsdStruct) :
    SdCsdStruct :=
  { csd with
    eraseBlkEn := (tempbyte &&& 0x40) >>> 6
    sectorSize := (tempbyte &&& 0x3F) <<< 1 ||| (byte0 (sdCsd 2) &&& 0x80) >>> 7
    wpGrpSize := byte0 (sdCsd 2) &&& 0x7F
    wpGrpEnable := (byte3 (sdCsd 3) &&& 0x80) >>> 7
    r2wFactor := (byte3 (sdCsd 3) &&& 0x1C) >>> 2
    writeBlLen := (byte3 (sdCsd 3) &&& 0x03) <<< 2 ||| (byte2 (sdCsd 3) &&& 0xC0) >>> 6
    writeBlPartial := (byte2 (sdCsd 3) &&& 0x20) >>> 5
    fileFormatGrp := (byte1 (sdCsd 3) &&& 0x80) >>> 7
    copyFlag := (byte1 (sdCsd 3) &&& 0x40) >>> 6
    permWriteProtect := (byte1 (sdCsd 3) &&& 0x20) >>> 5
    tmpWriteProtect := (byte1 (sdCsd 3) &&& 0x10) >>> 4
    fileFormat := (byte1 (sdCsd 3) &&& 0x0C) >>> 2
    csdCrc := (byte0 (sdCsd 3) &&& 0xFE) >>> 1 }

/-- `sd_card_information_get`, with what `pcardinfo` points to before and after. The fields
that a branch does not write keep what they held. -/
def sdCardInformationGet (d : Driver) : Option SdCardInfo → SdError × Option SdCardInfo
  | none => (.parameterInvalid, none)
  | some pcardinfo =>
    let head := csdDecodeHead d.sdCsd pcardinfo.cardCsd
    let info : SdCardInfo :=
      { pcardinfo with
        cardType := d.cardtype
        cardRca := d.sdRca
        cardCid := cidDecode d.sdCid
        cardCsd := head }
    if d.cardtype = .stdCapacitySdCardV11 ∨ d.cardtype = .stdCapacitySdCardV20 then
      let csd := csdDecodeV1 d.sdCsd head
      let blocksize : UInt32 := 1 <<< csd.readBlLen.toUInt32
      (.ok, some { info with
        cardBlocksize := blocksize
        cardCapacity :=
          (csd.cSize + 1) * ((1 : UInt32) <<< (csd.cSizeMult.toUInt32 + 2)) * blocksize
        -- `tempbyte` holds byte 10
        cardCsd := csdDecodeTail d.sdCsd (byte1 (d.sdCsd 2)) csd })
    else if d.cardtype = .highCapacitySdCard then
      let csd := csdDecodeV2 d.sdCsd head
      (.ok, some { info with
        cardBlocksize := 512
        cardCapacity := (csd.cSize + 1) * 512 * 1024
        -- `tempbyte` still holds byte 9
        cardCsd := csdDecodeTail d.sdCsd (byte2 (d.sdCsd 2)) csd })
    else
      (.ok, some { info with cardCsd := csdDecodeTail d.sdCsd (byte1 (d.sdCsd 1)) head })

/-- `sd_card_capacity_get`, in units of 1024 bytes. -/
def sdCardCapacityGet (d : Driver) : UInt32 :=
  if d.cardtype = .stdCapacitySdCardV11 ∨ d.cardtype = .stdCapacitySdCardV20 then
    let devicesize := (byte1 (d.sdCsd 1) &&& 0x03).toUInt32 <<< 10 |||
      (byte0 (d.sdCsd 1)).toUInt32 <<< 2 ||| (byte3 (d.sdCsd 2) &&& 0xC0).toUInt32 >>> 6
    let devicesizeMult := (byte2 (d.sdCsd 2) &&& 0x03) <<< 1 |||
      (byte1 (d.sdCsd 2) &&& 0x80) >>> 7
    let readblklen := byte2 (d.sdCsd 1) &&& 0x0F
    let capacity := (devicesize + 1) * ((1 : UInt32) <<< (devicesizeMult.toUInt32 + 2)) *
      ((1 : UInt32) <<< readblklen.toUInt32)
    capacity / 1024
  else if d.cardtype = .highCapacitySdCard then
    let devicesize := (byte0 (d.sdCsd 1) &&& 0x3F).toUInt32 <<< 16 |||
      (byte3 (d.sdCsd 2)).toUInt32 <<< 8 ||| (byte2 (d.sdCsd 2)).toUInt32
    (devicesize + 1) * 512
  else 0

end Gd32Firmware
