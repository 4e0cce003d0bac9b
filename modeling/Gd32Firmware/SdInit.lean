import Gd32Firmware.SdTransfer

/-!
# Bringing up the card

`sd_power_on`, `sd_card_init`, `sd_init` and the functions that configure the bus, of
`user/sys/sdcard.c`, and `sd_io_init` of `user/bsp/bsp_sd.c`. They run with no source of the
interrupt enabled, since `sd_init` resets the peripheral and none of them enables one, so
every instant is `masked`. The clocks, the pins and the priority of the interrupt are not
modelled.
-/

namespace Gd32Firmware

open Program

/-! ## Identification -/

/-- The loop of `sd_power_on` that sends ACMD41 until the card is powered up. The result is
the status, the last response and the number of rounds. -/
def voltageLoop (sdcardtype : UInt32) : Program World (SdError × UInt32 × ℕ) :=
  sdLoop (fun (busyflag, response, count) => do
    if ¬ busyflag ∧ count < 65535 then do
      let status ← commandR1 masked 55 0
      if status ≠ .ok then pure (.inr (status, response, count))
      else do
        sendCommand masked 41 (0x80100000 ||| sdcardtype) .short
        let status ← r3ErrorCheck masked
        if status ≠ .ok then pure (.inr (status, response, count))
        else do
          let response ← sdioResponseGet masked 0
          note (.ocr response)
          pure (.inl ((response >>> 31) &&& 1 = 1, response, count + 1))
    else pure (.inr (.ok, response, count))) (false, (0 : UInt32), (0 : ℕ))

/-- The branch of `sd_power_on` for an SD memory card. -/
def voltageValidation (sdcardtype : UInt32) : Program World SdError := do
  let (status, response, count) ← voltageLoop sdcardtype
  if status ≠ .ok then pure status
  else if 65535 ≤ count then pure .voltrangeInvalid
  else if response &&& 0x40000000 ≠ 0 then do
    setDrv fun drv => { drv with cardtype := .highCapacitySdCard }
    pure .ok
  else pure .ok

/-- `sd_power_on` up to `CMD0`. -/
def powerUp : Program World SdError := do
  configure masked (.clockConfig 0x76)
  configure masked (.busMode 0)
  configure masked .hardwareClockDisable
  sdioPowerStateSet masked true
  configure masked .clockEnable
  sendCommand masked 0 0 .no
  cmdsentErrorCheck masked

/-- The part of `sd_power_on` that sends `CMD8`. The result is the value of `sdcardtype`. -/
def sendIfCond : Program World UInt32 := do
  sendCommand masked 8 0x1AA .short
  if (← r7ErrorCheck masked) = .ok then do
    setDrv fun drv => { drv with cardtype := .stdCapacitySdCardV20 }
    pure 0x40000000
  else pure 0

def sdPowerOn : Program World SdError :=
  ifOk powerUp do
    let sdcardtype ← sendIfCond
    if (← commandR1 masked 55 0) = .ok then voltageValidation sdcardtype
    else pure .ok

/-- The four response registers. -/
def readResponses : Program World (Fin 4 → UInt32) := do
  let r0 ← sdioResponseGet masked 0
  let r1 ← sdioResponseGet masked 1
  let r2 ← sdioResponseGet masked 2
  let r3 ← sdioResponseGet masked 3
  pure ![r0, r1, r2, r3]

/-- `CMD2`, which gets the CID numbers. -/
def allSendCid : Program World SdError := do
  if (← getDrv).cardtype ≠ .secureDigitalIoCard then do
    sendCommand masked 2 0 .long
    ifOk (r2ErrorCheck masked) do
      let sdCid ← readResponses
      setDrv fun drv => { drv with sdCid := sdCid }
      pure .ok
  else pure .ok

/-- `CMD3`, which asks for an address. The result has the value of `temp_rca`. -/
def sendRelativeAddr : Program World (SdError × UInt16) := do
  let cardtype := (← getDrv).cardtype
  if cardtype.IsSdMemory ∨ cardtype = .secureDigitalIoComboCard then do
    sendCommand masked 3 0 .short
    r6ErrorCheck masked 3 1
  else pure (.ok, 1)

/-- `CMD9`, which gets the card-specific data. -/
def sendCsd (tempRca : UInt16) : Program World SdError := do
  if (← getDrv).cardtype ≠ .secureDigitalIoCard then do
    setDrv fun drv => { drv with sdRca := tempRca }
    sendCommand masked 9 (tempRca.toUInt32 <<< 16) .long
    ifOk (r2ErrorCheck masked) do
      let sdCsd ← readResponses
      setDrv fun drv => { drv with sdCsd := sdCsd }
      pure .ok
  else pure .ok

def sdCardInit : Program World SdError := do
  if ← sdioPowerStateGet masked then
    ifOk allSendCid do
      let (status, tempRca) ← sendRelativeAddr
      if status ≠ .ok then pure status else sendCsd tempRca
  else pure .operationImproper

def sdInit : Program World SdError := do
  sdioDeinit masked
  ifOk sdPowerOn <|
    ifOk sdCardInit do
      configure masked (.clockConfig 0x2)
      configure masked (.busMode 0)
      configure masked .hardwareClockDisable
      pure .ok

/-! ## The bus -/

def sdCardSelectDeselect (cardrca : UInt16) : Program World SdError :=
  commandR1 masked 7 (cardrca.toUInt32 <<< 16)

/-- `sd_cardstatus_get`, with what `pcardstatus` points to before and after. -/
def sdCardstatusGet (pcardstatus : UInt32) : Program World (SdError × UInt32) := do
  let status ← commandR1 masked 13 (rcaArgument (← getDrv))
  if status ≠ .ok then pure (status, pcardstatus)
  else do
    let response ← sdioResponseGet masked 0
    pure (.ok, response)

/-- The order of the bytes is reversed. -/
def byteSwap (word : UInt32) : UInt32 :=
  (word &&& 0x000000FF) <<< 24 ||| (word &&& 0x0000FF00) <<< 8 |||
    (word &&& 0x00FF0000) >>> 8 ||| (word &&& 0xFF000000) >>> 24

/-- The loop of `sd_scr_get`. The words go to `temp_scr`, which has room for two. -/
def receiveScr : Program World (ℕ → UInt32) :=
  sdLoop (fun (tempScr, idxScr) => do
    if ← sdioFlagGet masked (pollFlags .rxore .dtblkend) then pure (.inr tempScr)
    else if ← sdioFlagGet masked [.rxdtval] then do
      let word ← sdioDataRead masked
      pure (.inl (Function.update tempScr idxScr word, idxScr + 1))
    else pure (.inl (tempScr, idxScr))) ((fun _ => 0 : ℕ → UInt32), (0 : ℕ))

/-- `sd_scr_get`, which stores into `sd_scr`. -/
def sdScrGet (rca : UInt16) : Program World SdError :=
  ifOk (commandR1 masked 16 8) <|
    ifOk (commandR1 masked 55 (rca.toUInt32 <<< 16)) do
      configure masked (.dataConfig 0xFFFFFFFF 8 0x30)
      configure masked (.dataTransferConfig true)
      configure masked (.dsm true)
      ifOk (commandR1 masked 51 0) do
        let tempScr ← receiveScr
        ifOk (checkFaults masked (dataFaults .rxore .rxOverrunError)) do
          sdioFlagClear masked sdioMaskIntcFlags
          setDrv fun drv => { drv with sdScr := ![byteSwap (tempScr 1), byteSwap (tempScr 0)] }
          pure .ok

/-- `SD_BUS_WIDTH_4BIT`. -/
def sdBusWidth4bit : UInt32 := 0x00040000

/-- `SD_BUS_WIDTH_1BIT`. -/
def sdBusWidth1bit : UInt32 := 0x00010000

/-- `ACMD6` with an argument, if the SCR has the width. -/
def setBusWidth (buswidth argument : UInt32) : Program World SdError := do
  let drv ← getDrv
  if drv.sdScr 1 &&& buswidth ≠ 0 then
    ifOk (commandR1 masked 55 (rcaArgument drv)) (commandR1 masked 6 argument)
  else pure .operationImproper

def sdBusWidthConfig (buswidth : UInt32) : Program World SdError := do
  if (← sdioResponseGet masked 0) &&& 0x02000000 ≠ 0 then pure .lockUnlockFailed
  else
    ifOk (sdScrGet (← getDrv).sdRca) <|
      if buswidth = sdBusWidth1bit then setBusWidth buswidth 0
      else if buswidth = sdBusWidth4bit then setBusWidth buswidth 2
      else pure .parameterInvalid

/-- `SDIO_BUSMODE_1BIT`. -/
def sdioBusmode1bit : UInt32 := 0

/-- `SDIO_BUSMODE_4BIT`. -/
def sdioBusmode4bit : UInt32 := 0x800

/-- `SDIO_BUSMODE_8BIT`. -/
def sdioBusmode8bit : UInt32 := 0x1000

/-- The card and the peripheral change to a bus width. -/
def changeBusMode (buswidth busmode : UInt32) : Program World SdError :=
  ifOk (sdBusWidthConfig buswidth) do
    configure masked (.clockConfig 0x2)
    configure masked (.busMode busmode)
    configure masked .hardwareClockDisable
    pure .ok

def sdBusModeConfig (busmode : UInt32) : Program World SdError := do
  let cardtype := (← getDrv).cardtype
  if cardtype = .multimediaCard then pure .functionUnsupported
  else if cardtype.IsSdMemory then
    if busmode = sdioBusmode8bit then pure .functionUnsupported
    else if busmode = sdioBusmode4bit then changeBusMode sdBusWidth4bit busmode
    else if busmode = sdioBusmode1bit then changeBusMode sdBusWidth1bit busmode
    else pure .parameterInvalid
  else pure .ok

def sdTransferModeConfig (txmode : UInt32) : Program World SdError := do
  if txmode = sdDmaMode ∨ txmode = sdPollingMode then do
    setDrv fun drv => { drv with transmode := txmode }
    pure .ok
  else pure .parameterInvalid

/-! ## The bring-up -/

/-- `sd_card_information_get` of `sd_cardinfo`. -/
def cardInformationGet : Program World SdError := do
  let drv ← getDrv
  let (status, info) := sdCardInformationGet drv (some drv.sdCardinfo)
  setDrv fun drv => { drv with sdCardinfo := info.getD drv.sdCardinfo }
  pure status

/-- A step of the bring-up, noted in the log. -/
def bringUpStep (step : BringUp) (f : Program World SdError) : Program World SdError := do
  note (.begin step)
  let status ← f
  note (.done step status)
  pure status

/-- `if(SD_OK == status) status = f();`. -/
def nextIfOk (status : SdError) (f : Program World SdError) : Program World SdError :=
  if status = .ok then f else pure status

def sdIoInit : Program World SdError := do
  let status ← bringUpStep .init sdInit
  let status ← nextIfOk status (bringUpStep .informationGet cardInformationGet)
  let _ ← nextIfOk status (bringUpStep .select do
    sdCardSelectDeselect (← getDrv).sdCardinfo.cardRca)
  -- the status so far is overwritten
  note (.begin .cardstatusGet)
  let (status, cardstate) ← sdCardstatusGet 0
  note (.done .cardstatusGet status)
  note (.lockCheck cardstate)
  -- the code prints a message and waits for ever
  if cardstate &&& 0x02000000 ≠ 0 then stuck
  else do
    let status ← nextIfOk status (bringUpStep .busModeConfig (sdBusModeConfig sdioBusmode4bit))
    nextIfOk status (bringUpStep .transferModeConfig (sdTransferModeConfig sdDmaMode))

end Gd32Firmware
